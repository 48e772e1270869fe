import LivefireRag.Cloud.Assignment

/-!
# Embedding bundles

The immutable upload and execution contract of a cloud run: the artifacts the
workers need, the identity every successful worker must have, the keys of the
query vectors, and the assignments. `RunpodEmbeddingBundle.validateAgainst`
binds a bundle to a prepared corpus and a plan.
-/

namespace LivefireRag.Cloud

open Pipeline Fallible Machine Seen

def runpodEmbeddingBundleSchema := "livefire.rag.runpod-embedding-bundle/1"
def runpodWorkerAttemptSchema := "livefire.rag.runpod-worker-attempt/1"
def runpodRunReportSchema := "livefire.rag.runpod-run-report/1"

/-! ### Artifacts -/

/-- A control character: the general category `Cc`. -/
def IsControl (c : Char) : Prop := c.toNat < 32 ∨ 127 ≤ c.toNat ∧ c.toNat < 160

instance : DecidablePred IsControl := fun c => by unfold IsControl; infer_instance

def requireBoundedText (value : String) : Result Unit := do
  requireText value
  throwIf (256 < value.utf8ByteSize ∨ ∃ c ∈ value.toList, IsControl c)
    (.invalid "cloud bounded text")

structure CloudObjectRef where
  key : SafeRelativePath
  bytes : U64
  sha256 : Digest
  deriving DecidableEq

instance : ToJson CloudObjectRef := ⟨fun object => .mkObject
  [("key", toJson object.key), ("bytes", toJson object.bytes), ("sha256", toJson object.sha256)]⟩

def CloudObjectRef.validate (object : CloudObjectRef) : Result Unit := do
  requireSafeU64 object.bytes
  throwIf ((object.bytes : ℕ) = 0) (.invalid "cloud object byte length")

structure CloudComponentArtifact where
  componentSha256 : Digest
  object : CloudObjectRef
  deriving DecidableEq

instance : ToJson CloudComponentArtifact := ⟨fun artifact => .mkObject
  [("component_sha256", toJson artifact.componentSha256), ("object", toJson artifact.object)]⟩

structure CloudPreparedDocumentArtifact where
  preparedPath : SafeRelativePath
  object : CloudObjectRef
  deriving DecidableEq

instance : ToJson CloudPreparedDocumentArtifact := ⟨fun artifact => .mkObject
  [("prepared_path", toJson artifact.preparedPath), ("object", toJson artifact.object)]⟩

structure RunpodBundleArtifacts where
  preparedManifest : CloudComponentArtifact
  embeddingPlan : CloudComponentArtifact
  documentTokenCounts : CloudObjectRef
  embeddingProfile : CloudComponentArtifact
  executorImageBuild : CloudComponentArtifact
  executableTokenizer : CloudComponentArtifact
  conformanceFixture : CloudObjectRef
  queryPlan : CloudObjectRef
  workerBinary : CloudComponentArtifact
  modelManifest : CloudComponentArtifact
  modelObjects : List CloudObjectRef
  preparedDocuments : List CloudPreparedDocumentArtifact
  deriving DecidableEq

instance : ToJson RunpodBundleArtifacts := ⟨fun artifacts => .mkObject
  [("prepared_manifest", toJson artifacts.preparedManifest),
    ("embedding_plan", toJson artifacts.embeddingPlan),
    ("document_token_counts", toJson artifacts.documentTokenCounts),
    ("embedding_profile", toJson artifacts.embeddingProfile),
    ("executor_image_build", toJson artifacts.executorImageBuild),
    ("executable_tokenizer", toJson artifacts.executableTokenizer),
    ("conformance_fixture", toJson artifacts.conformanceFixture),
    ("query_plan", toJson artifacts.queryPlan), ("worker_binary", toJson artifacts.workerBinary),
    ("model_manifest", toJson artifacts.modelManifest),
    ("model_objects", toJson artifacts.modelObjects),
    ("prepared_documents", toJson artifacts.preparedDocuments)]⟩

/-- The artifacts whose logical identity another contract declares. -/
def RunpodBundleArtifacts.components (artifacts : RunpodBundleArtifacts) :
    List CloudComponentArtifact :=
  [artifacts.preparedManifest, artifacts.embeddingPlan, artifacts.embeddingProfile,
    artifacts.executorImageBuild, artifacts.executableTokenizer, artifacts.workerBinary,
    artifacts.modelManifest]

def artifactKeys (artifacts : RunpodBundleArtifacts) : List SafeRelativePath :=
  (artifacts.components.map (·.object.key)) ++
  [artifacts.documentTokenCounts.key, artifacts.conformanceFixture.key,
    artifacts.queryPlan.key] ++
  artifacts.modelObjects.map (·.key) ++
  artifacts.preparedDocuments.map (·.object.key)

/-- One document object of the corpus: the artifact supplied for its path has its
bytes. -/
def validatePreparedArtifact (supplied : SortedMap SafeRelativePath CloudPreparedDocumentArtifact)
    (entry : SafeRelativePath × PreparedDocumentObject) : Result Unit := do
  let artifact ← orThrow (supplied.get? entry.1) (.invalid "cloud missing prepared document")
  artifact.object.validate
  throwIf (artifact.object.bytes ≠ entry.2.object.bytes ∨
      artifact.object.sha256 ≠ entry.2.object.sha256)
    (.invalid "cloud prepared document binding")

def validateModelObject (keys : List SafeRelativePath) (object : CloudObjectRef) :
    Result (List SafeRelativePath) := do
  object.validate
  orThrow (insertNew keys object.key) (.invalid "cloud duplicate model object")

def validateArtifacts (artifacts : RunpodBundleArtifacts) (prepared : PreparedCorpusManifest)
    (plan : EmbeddingPlanV2) : Result Unit := do
  forM artifacts.components fun artifact => artifact.object.validate
  artifacts.documentTokenCounts.validate
  artifacts.conformanceFixture.validate
  artifacts.queryPlan.validate
  throwIf (artifacts.preparedManifest.componentSha256 ≠ prepared.componentSha256 ∨
      artifacts.embeddingPlan.componentSha256 ≠ plan.componentSha256 ∨
      artifacts.embeddingProfile.componentSha256 ≠ plan.embeddingProfile.component.sha256 ∨
      artifacts.executableTokenizer.componentSha256 ≠ plan.executableTokenizer.artifact.sha256 ∨
      artifacts.modelManifest.componentSha256 ≠ plan.embeddingProfile.modelArtifact.sha256 ∨
      artifacts.documentTokenCounts.bytes ≠ plan.documentTokenCountsObject.bytes ∨
      artifacts.documentTokenCounts.sha256 ≠ plan.documentTokenCountsObject.sha256 ∨
      artifacts.modelObjects = [] ∨
      artifacts.queryPlan.key.val ≠ "input/query/queries.jsonl" ∨
      artifacts.preparedDocuments.length ≠ prepared.documents.length)
    (.invalid "cloud input artifact binding")
  let expected := SortedMap.ofList (prepared.documents.map fun entry => (entry.object.path, entry))
  let supplied := SortedMap.ofList
    (artifacts.preparedDocuments.map fun entry => (entry.preparedPath, entry))
  throwIf (expected.size ≠ prepared.documents.length ∨
      supplied.size ≠ artifacts.preparedDocuments.length)
    (.invalid "cloud prepared document coverage")
  forM expected.entries (validatePreparedArtifact supplied)
  let _ ← artifacts.modelObjects.foldlM validateModelObject []

/-! ### The execution identity -/

structure RunpodAcceleratorIdentity where
  provider : String
  model : String
  architecture : String
  computeCapability : String
  count : U32
  deriving DecidableEq

instance : ToJson RunpodAcceleratorIdentity := ⟨fun accelerator => .mkObject
  [("provider", toJson accelerator.provider), ("model", toJson accelerator.model),
    ("architecture", toJson accelerator.architecture),
    ("compute_capability", toJson accelerator.computeCapability),
    ("count", toJson accelerator.count)]⟩

def RunpodAcceleratorIdentity.validate (accelerator : RunpodAcceleratorIdentity) :
    Result Unit := do
  forM [accelerator.provider, accelerator.model, accelerator.architecture,
    accelerator.computeCapability] requireBoundedText
  throwIf (accelerator.count ≠ 1) (.invalid "cloud accelerator count")

structure RunpodExecutionIdentity where
  executorImage : ComponentRef
  executorImageBuild : ComponentRef
  runtime : ComponentRef
  workerBinary : ComponentRef
  modelArtifact : ComponentRef
  embeddingProfile : ComponentRef
  accelerator : RunpodAcceleratorIdentity
  returnedModel : String
  deriving DecidableEq

instance : ToJson RunpodExecutionIdentity := ⟨fun execution => .mkObject
  [("executor_image", toJson execution.executorImage),
    ("executor_image_build", toJson execution.executorImageBuild),
    ("runtime", toJson execution.runtime), ("worker_binary", toJson execution.workerBinary),
    ("model_artifact", toJson execution.modelArtifact),
    ("embedding_profile", toJson execution.embeddingProfile),
    ("accelerator", toJson execution.accelerator),
    ("returned_model", toJson execution.returnedModel)]⟩

def RunpodExecutionIdentity.validate (execution : RunpodExecutionIdentity) : Result Unit := do
  execution.executorImage.validate
  execution.executorImageBuild.validate
  execution.runtime.validate
  execution.workerBinary.validate
  execution.modelArtifact.validate
  execution.embeddingProfile.validate
  execution.accelerator.validate
  requireText execution.returnedModel

/-! ### The bundle -/

/-- Where the query vectors go, and the one worker that writes them. -/
structure RunpodExpectedQueryVectorOutput where
  workerId : String
  manifestKey : SafeRelativePath
  queryPlanKey : SafeRelativePath
  vectorsKey : SafeRelativePath
  deriving DecidableEq

instance : ToJson RunpodExpectedQueryVectorOutput := ⟨fun output => .mkObject
  [("worker_id", toJson output.workerId), ("manifest_key", toJson output.manifestKey),
    ("query_plan_key", toJson output.queryPlanKey), ("vectors_key", toJson output.vectorsKey)]⟩

def RunpodExpectedQueryVectorOutput.validate (output : RunpodExpectedQueryVectorOutput) :
    Result Unit :=
  throwIf (output.workerId ≠ "worker-0000" ∨
      output.manifestKey.val ≠ "query-vectors/manifest.json" ∨
      output.queryPlanKey.val ≠ "query-vectors/queries.jsonl" ∨
      output.vectorsKey.val ≠ "query-vectors/vectors.f32le")
    (.invalid "cloud query vector output keys")

structure RunpodEmbeddingBundle where
  schemaVersion : String
  componentSha256 : Digest
  preparedCorpusSha256 : Digest
  planSha256 : Digest
  embeddingProfileSha256 : Digest
  tokenizerSha256 : Digest
  modelSha256 : Digest
  documentCount : U64
  taskCount : U32
  totalTokens : U64
  artifacts : RunpodBundleArtifacts
  execution : RunpodExecutionIdentity
  queryVectorOutput : RunpodExpectedQueryVectorOutput
  assignments : List RunpodWorkerAssignment
  deriving DecidableEq

/-- The fields of a bundle other than its own digest. -/
def RunpodEmbeddingBundle.body (bundle : RunpodEmbeddingBundle) : List (String × Json) :=
  [("schema_version", toJson bundle.schemaVersion),
    ("prepared_corpus_sha256", toJson bundle.preparedCorpusSha256),
    ("plan_sha256", toJson bundle.planSha256),
    ("embedding_profile_sha256", toJson bundle.embeddingProfileSha256),
    ("tokenizer_sha256", toJson bundle.tokenizerSha256),
    ("model_sha256", toJson bundle.modelSha256), ("document_count", toJson bundle.documentCount),
    ("task_count", toJson bundle.taskCount), ("total_tokens", toJson bundle.totalTokens),
    ("artifacts", toJson bundle.artifacts), ("execution", toJson bundle.execution),
    ("query_vector_output", toJson bundle.queryVectorOutput),
    ("assignments", toJson bundle.assignments)]

instance : ToJson RunpodEmbeddingBundle :=
  ⟨fun bundle => sealedObject bundle.componentSha256 bundle.body⟩

@[simp] theorem RunpodEmbeddingBundle.body_setDigest (bundle : RunpodEmbeddingBundle)
    (digest : Digest) : { bundle with componentSha256 := digest }.body = bundle.body := rfl

/-- The bundle with its own digest filled in. -/
def RunpodEmbeddingBundle.withDigest (prims : Primitives) (bundle : RunpodEmbeddingBundle) :
    RunpodEmbeddingBundle :=
  { bundle with componentSha256 := canonicalDigest prims (.mkObject bundle.body) }

theorem RunpodEmbeddingBundle.digest_withDigest (prims : Primitives)
    (bundle : RunpodEmbeddingBundle) : (bundle.withDigest prims).componentSha256 =
      canonicalDigest prims (.mkObject (bundle.withDigest prims).body) := rfl

/-- All keys of the bundle: the query vectors, the artifacts, the outputs of the
tasks. -/
def RunpodEmbeddingBundle.keys (bundle : RunpodEmbeddingBundle) : List SafeRelativePath :=
  [bundle.queryVectorOutput.manifestKey, bundle.queryVectorOutput.queryPlanKey,
    bundle.queryVectorOutput.vectorsKey] ++ artifactKeys bundle.artifacts ++
  bundle.assignments.flatMap fun assignment =>
    assignment.tasks.flatMap RunpodExpectedTaskOutput.keys

section Hashing

variable (prims : Primitives)

def RunpodEmbeddingBundle.validateAgainst (bundle : RunpodEmbeddingBundle)
    (prepared : PreparedCorpusManifest) (plan : EmbeddingPlanV2) : Result Unit := do
  prepared.validate prims
  plan.validateManifestBinding prims prepared
  requireSafeU64 bundle.documentCount
  requireSafeU64 bundle.totalTokens
  throwIf (bundle.schemaVersion ≠ runpodEmbeddingBundleSchema ∨
      bundle.preparedCorpusSha256 ≠ prepared.componentSha256 ∨
      bundle.planSha256 ≠ plan.componentSha256 ∨
      bundle.embeddingProfileSha256 ≠ plan.embeddingProfile.component.sha256 ∨
      bundle.tokenizerSha256 ≠ plan.executableTokenizer.artifact.sha256 ∨
      bundle.modelSha256 ≠ plan.embeddingProfile.modelArtifact.sha256 ∨
      bundle.documentCount ≠ plan.documentCount ∨
      (bundle.taskCount : ℕ) ≠ plan.tasks.length ∨
      bundle.totalTokens ≠ plan.tokenStatistics.totalTokens ∨ bundle.assignments = [])
    (.invalid "cloud bundle plan binding")
  bundle.execution.validate
  bundle.queryVectorOutput.validate
  throwIf (bundle.execution.modelArtifact ≠ plan.embeddingProfile.modelArtifact ∨
      bundle.execution.embeddingProfile ≠ plan.embeddingProfile.component ∨
      bundle.execution.executorImageBuild.sha256 ≠
        bundle.artifacts.executorImageBuild.componentSha256 ∨
      bundle.execution.workerBinary.sha256 ≠ bundle.artifacts.workerBinary.componentSha256)
    (.invalid "cloud execution identity binding")
  validateArtifacts bundle.artifacts prepared plan
  validateAssignments prims bundle.assignments plan
  let _ ← orThrow (insertAll [] bundle.keys) (.invalid "cloud bundle duplicate object key")
  let digest ← componentDigest prims (toJson bundle)
  throwIf (bundle.componentSha256 ≠ digest) (.invalid "cloud bundle component digest")

/-- Sealing writes the digest of the bundle into it. -/
def RunpodEmbeddingBundle.seal (bundle : RunpodEmbeddingBundle) :
    Result RunpodEmbeddingBundle := do
  let digest ← componentDigest prims (toJson bundle)
  return { bundle with componentSha256 := digest }

end Hashing

theorem RunpodEmbeddingBundle.componentDigest_eq (prims : Primitives)
    (bundle : RunpodEmbeddingBundle) : componentDigest prims (toJson bundle) =
      .ok (canonicalDigest prims (.mkObject bundle.body)) :=
  componentDigest_sealedObject prims (by simp [RunpodEmbeddingBundle.body])

/-- What later results use of an accepted bundle: the plan is valid, there are
assignments, they are those of the plan, and the query vectors are bound to
their worker and keys. -/
structure BundleAccepted (prims : Primitives) (prepared : PreparedCorpusManifest)
    (plan : EmbeddingPlanV2) (bundle : RunpodEmbeddingBundle) : Prop where
  binding : plan.validateManifestBinding prims prepared = .ok ()
  nonempty : bundle.assignments ≠ []
  taskCount : (bundle.taskCount : ℕ) = plan.tasks.length
  worker : bundle.queryVectorOutput.workerId = "worker-0000"
  assignments : AssignmentsAccepted prims plan bundle.assignments
  keys_nodup : bundle.keys.Nodup

theorem RunpodEmbeddingBundle.accepted {prims : Primitives} {prepared : PreparedCorpusManifest}
    {plan : EmbeddingPlanV2} {bundle : RunpodEmbeddingBundle}
    (h : bundle.validateAgainst prims prepared plan = .ok ()) :
    BundleAccepted prims prepared plan bundle := by
  simp only [validateAgainst, RunpodExpectedQueryVectorOutput.validate, bind_eq_ok, exists_unit,
    throwIf_eq_ok, orThrow_eq_ok, insertAll_eq_some, fresh_empty, not_or, not_not] at h
  obtain ⟨-, hbinding, -, -, ⟨-, -, -, -, -, -, -, htasks, -, hne⟩, -, ⟨hworker, -, -, -⟩, -, -,
    hassignments, _, ⟨hkeys, -⟩, -⟩ := h
  exact ⟨hbinding, hne, htasks, hworker, validateAssignments_eq_ok.mp hassignments, hkeys⟩

end LivefireRag.Cloud
