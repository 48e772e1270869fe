import LivefireRag.Pipeline.Manifest

/-!
# Token-balanced embedding plans

A plan cuts the documents of a prepared corpus into tasks, and each task into
input slices, consecutive rows of one document object.

`EmbeddingPlanV2.validate` checks a plan alone: the tasks follow one another
from document 0 to the document count (`validateV2Tasks`), and every total and
maximum is the one of the parts. `EmbeddingPlanV2.validateManifestBinding`
checks it against a manifest: the slices of a task, placed by the cumulative
starts of their objects, follow one another through the task
(`validateV2SlicesAgainstManifest`).

Each check has its specification next to it, an equivalence between "the check
returns" and a structure that names what was checked (`SliceAccepted`,
`TaskAccepted`, `CountMetadataAccepted`, `SlicesPlaced`).
-/

namespace LivefireRag.Pipeline

open Fallible Machine

/-! ### Profiles and tokenizers -/

structure EmbeddingProfileRef where
  component : ComponentRef
  modelArtifact : ComponentRef
  tokenizer : ComponentRef
  maximumInputTokens : U32
  pooling : String
  normalization : String
  dimensions : U32
  dtype : String
  documentFormat : String
  deriving DecidableEq

-- the component is flattened into the profile
instance : ToJson EmbeddingProfileRef := ⟨fun profile => .mkObject <|
  profile.component.fields ++
  [("model_artifact", toJson profile.modelArtifact), ("tokenizer", toJson profile.tokenizer),
    ("maximum_input_tokens", toJson profile.maximumInputTokens),
    ("pooling", toJson profile.pooling), ("normalization", toJson profile.normalization),
    ("dimensions", toJson profile.dimensions), ("dtype", toJson profile.dtype),
    ("document_format", toJson profile.documentFormat)]⟩

def EmbeddingProfileRef.validate (profile : EmbeddingProfileRef) : Result Unit := do
  profile.component.validate
  profile.modelArtifact.validate
  profile.tokenizer.validate
  throwIf ((profile.maximumInputTokens : ℕ) = 0 ∨ (profile.dimensions : ℕ) = 0)
    (.invalid "embedding profile dimensions")
  throwIf ((profile.normalization ≠ "l2" ∧ profile.normalization ≠ "none") ∨
      profile.dtype ≠ "f32le")
    (.invalid "embedding profile format")
  requireText profile.pooling
  requireText profile.documentFormat

inductive TokenizerArtifactFormat where
  | huggingFaceTokenizerJson
  deriving DecidableEq

instance : ToJson TokenizerArtifactFormat :=
  ⟨fun | .huggingFaceTokenizerJson => .string "hugging_face_tokenizer_json"⟩

structure ExecutableTokenizerRef where
  artifact : ComponentRef
  format : TokenizerArtifactFormat
  modelRevision : String
  targetTokenizer : ComponentRef
  addSpecialTokens : Bool
  maximumInputBytes : U64
  deriving DecidableEq

instance : ToJson ExecutableTokenizerRef := ⟨fun reference => .mkObject
  [("artifact", toJson reference.artifact), ("format", toJson reference.format),
    ("model_revision", toJson reference.modelRevision),
    ("target_tokenizer", toJson reference.targetTokenizer),
    ("add_special_tokens", toJson reference.addSpecialTokens),
    ("maximum_input_bytes", toJson reference.maximumInputBytes)]⟩

def ExecutableTokenizerRef.validate (reference : ExecutableTokenizerRef) : Result Unit := do
  reference.artifact.validate
  reference.targetTokenizer.validate
  requireSafeU64 reference.maximumInputBytes
  throwIf (reference.modelRevision = "" ∨ (reference.maximumInputBytes : ℕ) = 0)
    (.invalid "executable tokenizer identity")

def ExecutableTokenizerRef.validateForProfile (reference : ExecutableTokenizerRef)
    (profile : EmbeddingProfileRef) : Result Unit := do
  reference.validate
  throwIf (reference.modelRevision ≠ profile.modelArtifact.version)
    (.invalid "tokenizer model revision binding")
  throwIf (reference.targetTokenizer ≠ profile.tokenizer) (.invalid "tokenizer profile binding")

def documentInputToken := "{semantic_text}"
def maxDocumentFormatBytes : ℕ := 4096
def maxFormattedDocumentBytes : ℕ := 1048576

/-- The document-input format shared by planning and execution. Length limits
are UTF-8 bytes. -/
def formatDocumentInput (documentFormat semanticText : String) : Option String :=
  if semanticText = "" ∨ documentFormat = "" ∨
      maxDocumentFormatBytes < documentFormat.utf8ByteSize ∨
      Text.countMatches documentFormat documentInputToken ≠ 1 then none
  else
    let remaining := Text.replace documentFormat documentInputToken ""
    if '{' ∈ remaining.toList ∨ '}' ∈ remaining.toList then none
    else if documentFormat.utf8ByteSize < documentInputToken.utf8ByteSize then none
    else do
      let size ← checkedAdd 64 (documentFormat.utf8ByteSize - documentInputToken.utf8ByteSize)
        semanticText.utf8ByteSize
      if maxFormattedDocumentBytes < size then none
      else some (Text.replace documentFormat documentInputToken semanticText)

def formatDocumentInputExact (format semanticText : String) : Result String :=
  orThrow (formatDocumentInput format semanticText) (.invalid "document input format")

/-! ### Plans -/

structure EmbeddingInputSliceV2 where
  path : SafeRelativePath
  objectSha256 : Digest
  rowOffset : U64
  rows : U64
  embeddingInputOrderSha256 : Digest
  tokenCount : U64
  maximumDocumentTokens : U32
  documentTokenCountsSha256 : Digest
  deriving DecidableEq

instance : ToJson EmbeddingInputSliceV2 := ⟨fun slice => .mkObject
  [("path", toJson slice.path), ("object_sha256", toJson slice.objectSha256),
    ("row_offset", toJson slice.rowOffset), ("rows", toJson slice.rows),
    ("embedding_input_order_sha256", toJson slice.embeddingInputOrderSha256),
    ("token_count", toJson slice.tokenCount),
    ("maximum_document_tokens", toJson slice.maximumDocumentTokens),
    ("document_token_counts_sha256", toJson slice.documentTokenCountsSha256)]⟩

structure EmbeddingTaskV2 where
  taskId : String
  ordinalStart : U64
  ordinalEnd : U64
  inputSlices : List EmbeddingInputSliceV2
  embeddingInputOrderSha256 : Digest
  tokenCount : U64
  maximumDocumentTokens : U32
  documentTokenCountsSha256 : Digest
  resultPath : SafeRelativePath
  receiptPath : SafeRelativePath
  deriving DecidableEq

instance : ToJson EmbeddingTaskV2 := ⟨fun task => .mkObject
  [("task_id", toJson task.taskId), ("ordinal_start", toJson task.ordinalStart),
    ("ordinal_end", toJson task.ordinalEnd), ("input_slices", toJson task.inputSlices),
    ("embedding_input_order_sha256", toJson task.embeddingInputOrderSha256),
    ("token_count", toJson task.tokenCount),
    ("maximum_document_tokens", toJson task.maximumDocumentTokens),
    ("document_token_counts_sha256", toJson task.documentTokenCountsSha256),
    ("result_path", toJson task.resultPath), ("receipt_path", toJson task.receiptPath)]⟩

/-- The subtraction saturates at 0. -/
def EmbeddingTaskV2.rowCount (task : EmbeddingTaskV2) : ℕ :=
  (task.ordinalEnd : ℕ) - task.ordinalStart

structure DocumentTokenCountsObject where
  path : SafeRelativePath
  rows : U64
  bytes : U64
  sha256 : Digest
  documentTokenCountsSha256 : Digest
  deriving DecidableEq

instance : ToJson DocumentTokenCountsObject := ⟨fun object => .mkObject
  [("path", toJson object.path), ("rows", toJson object.rows), ("bytes", toJson object.bytes),
    ("sha256", toJson object.sha256),
    ("document_token_counts_sha256", toJson object.documentTokenCountsSha256)]⟩

structure TokenStatistics where
  totalTokens : U64
  p50Tokens : U32
  p90Tokens : U32
  p95Tokens : U32
  p99Tokens : U32
  maximumTokens : U32
  deriving DecidableEq

instance : ToJson TokenStatistics := ⟨fun statistics => .mkObject
  [("total_tokens", toJson statistics.totalTokens), ("p50_tokens", toJson statistics.p50Tokens),
    ("p90_tokens", toJson statistics.p90Tokens), ("p95_tokens", toJson statistics.p95Tokens),
    ("p99_tokens", toJson statistics.p99Tokens),
    ("maximum_tokens", toJson statistics.maximumTokens)]⟩

structure EmbeddingPlanV2 where
  schemaVersion : String
  componentSha256 : Digest
  preparedCorpusSha256 : Digest
  dataset : DatasetIdentity
  embeddingProfile : EmbeddingProfileRef
  executableTokenizer : ExecutableTokenizerRef
  documentCount : U64
  documentOrderSha256 : Digest
  documentTokenCountsSha256 : Digest
  documentTokenCountsObject : DocumentTokenCountsObject
  tokenStatistics : TokenStatistics
  maximumTaskTokens : U64
  maximumTaskDocuments : U32
  tasks : List EmbeddingTaskV2
  deriving DecidableEq

/-- The fields of a plan other than its own digest. -/
def EmbeddingPlanV2.body (plan : EmbeddingPlanV2) : List (String × Json) :=
  [("schema_version", toJson plan.schemaVersion),
    ("prepared_corpus_sha256", toJson plan.preparedCorpusSha256),
    ("dataset", toJson plan.dataset), ("embedding_profile", toJson plan.embeddingProfile),
    ("executable_tokenizer", toJson plan.executableTokenizer),
    ("document_count", toJson plan.documentCount),
    ("document_order_sha256", toJson plan.documentOrderSha256),
    ("document_token_counts_sha256", toJson plan.documentTokenCountsSha256),
    ("document_token_counts_object", toJson plan.documentTokenCountsObject),
    ("token_statistics", toJson plan.tokenStatistics),
    ("maximum_task_tokens", toJson plan.maximumTaskTokens),
    ("maximum_task_documents", toJson plan.maximumTaskDocuments), ("tasks", toJson plan.tasks)]

instance : ToJson EmbeddingPlanV2 :=
  ⟨fun plan => sealedObject plan.componentSha256 plan.body⟩

@[simp] theorem EmbeddingPlanV2.body_setDigest (plan : EmbeddingPlanV2) (digest : Digest) :
    { plan with componentSha256 := digest }.body = plan.body := rfl

def EmbeddingPlanV2.task (plan : EmbeddingPlanV2) (taskId : String) : Option EmbeddingTaskV2 :=
  plan.tasks.find? (·.taskId = taskId)

def documentTokenCountsPath := "token-counts/document-token-counts.u32le"

/-! ### Checks of a plan -/

def validateTokenCountMetadata (plan : EmbeddingPlanV2) : Result Unit := do
  let object := plan.documentTokenCountsObject
  let statistics := plan.tokenStatistics
  forM [object.rows, object.bytes, statistics.totalTokens] requireSafeU64
  let expectedBytes ← orThrow (checkedMul 64 plan.documentCount 4)
    (.invalid "document token count object bytes")
  let taskTotal ← checkedSum 64 (.invalid "plan token total")
    (plan.tasks.map fun task => (task.tokenCount : ℕ))
  let taskMaximum := (plan.tasks.map (·.maximumDocumentTokens)).max?.getD 0
  throwIf (object.path.val ≠ documentTokenCountsPath ∨ object.rows ≠ plan.documentCount ∨
      (object.bytes : ℕ) ≠ expectedBytes ∨
      object.documentTokenCountsSha256 ≠ plan.documentTokenCountsSha256 ∨
      (statistics.totalTokens : ℕ) ≠ taskTotal ∨ statistics.maximumTokens ≠ taskMaximum ∨
      plan.embeddingProfile.maximumInputTokens < statistics.maximumTokens ∨
      statistics.p90Tokens < statistics.p50Tokens ∨ statistics.p95Tokens < statistics.p90Tokens ∨
      statistics.p99Tokens < statistics.p95Tokens ∨
      statistics.maximumTokens < statistics.p99Tokens ∨
      ¬ ((plan.documentCount : ℕ) = 0 ↔
        (statistics.totalTokens : ℕ) = 0 ∧ statistics.p50Tokens = 0 ∧ statistics.p90Tokens = 0 ∧
          statistics.p95Tokens = 0 ∧ statistics.p99Tokens = 0 ∧ statistics.maximumTokens = 0))
    (.invalid "document token count metadata")

/-- What a task's identity depends on besides the task. -/
structure TaskIdentityContext where
  preparedCorpusSha256 : Digest
  embeddingProfileSha256 : Digest
  tokenizerSha256 : Digest

/-- The JSON value a task's id is the digest of. -/
def embeddingTaskV2Identity (identity : TaskIdentityContext) (ordinalStart ordinalEnd : U64)
    (embeddingInputOrderSha256 documentTokenCountsSha256 : Digest) (tokenCount : U64) : Json :=
  .mkObject
    [("schema_version", .string "livefire.rag.embedding-task/2"),
      ("prepared_corpus_sha256", toJson identity.preparedCorpusSha256),
      ("embedding_profile_sha256", toJson identity.embeddingProfileSha256),
      ("tokenizer_sha256", toJson identity.tokenizerSha256),
      ("ordinal_start", toJson ordinalStart), ("ordinal_end", toJson ordinalEnd),
      ("embedding_input_order_sha256", toJson embeddingInputOrderSha256),
      ("document_token_counts_sha256", toJson documentTokenCountsSha256),
      ("token_count", toJson tokenCount)]

section Hashing

variable (prims : Primitives)

def embeddingTaskV2Id (identity : TaskIdentityContext) (ordinalStart ordinalEnd : U64)
    (embeddingInputOrderSha256 documentTokenCountsSha256 : Digest) (tokenCount : U64) : Digest :=
  canonicalDigest prims (embeddingTaskV2Identity identity ordinalStart ordinalEnd
    embeddingInputOrderSha256 documentTokenCountsSha256 tokenCount)

/-- One slice of a task: its own checks, then its rows are added up. -/
def validateV2Slice (maximumInputTokens : U32) (sum : ℕ) (slice : EmbeddingInputSliceV2) :
    Result ℕ := do
  forM [slice.rowOffset, slice.rows, slice.tokenCount] requireSafeU64
  throwIf ((slice.rows : ℕ) = 0 ∨ (slice.tokenCount : ℕ) = 0 ∨
      (slice.tokenCount : ℕ) < slice.rows ∨ (slice.maximumDocumentTokens : ℕ) = 0 ∨
      maximumInputTokens < slice.maximumDocumentTokens ∨
      (slice.tokenCount : ℕ) < slice.maximumDocumentTokens)
    (.invalid "embedding task v2 slice tokens")
  orThrow (checkedAdd 64 sum slice.rows) (.invalid "embedding task v2 slice rows")

/-- What the pass over the tasks has seen. -/
structure TaskScan where
  next : ℕ
  ids : List String
  paths : List SafeRelativePath

/-- The limits a plan puts on its tasks. -/
structure TaskLimits where
  maximumTaskTokens : U64
  maximumTaskDocuments : U32
  maximumInputTokens : U32

local instance path_lawfulBEq : LawfulBEq SafeRelativePath := inferInstance

def validateV2Task (limits : TaskLimits) (identity : TaskIdentityContext) (scan : TaskScan)
    (task : EmbeddingTaskV2) : Result TaskScan := do
  requireSafeU64 task.ordinalStart
  requireSafeU64 task.ordinalEnd
  requireSafeU64 task.tokenCount
  let sliceRows ← task.inputSlices.foldlM (validateV2Slice limits.maximumInputTokens) 0
  let sliceTokens ← checkedSum 64 (.invalid "embedding task v2 slice tokens")
    (task.inputSlices.map fun slice => (slice.tokenCount : ℕ))
  let sliceMax ← orThrow (task.inputSlices.map (·.maximumDocumentTokens)).max?
    (.invalid "embedding task v2 slices")
  let expectedTaskId := embeddingTaskV2Id prims identity task.ordinalStart task.ordinalEnd
    task.embeddingInputOrderSha256 task.documentTokenCountsSha256 task.tokenCount
  throwIf (task.taskId ≠ expectedTaskId.val ∨ (task.ordinalStart : ℕ) ≠ scan.next ∨
      (task.ordinalEnd : ℕ) ≤ task.ordinalStart ∨ task.rowCount ≠ sliceRows ∨
      (limits.maximumTaskDocuments : ℕ) < task.rowCount ∨ task.inputSlices = [] ∨
      (task.tokenCount : ℕ) = 0 ∨ (task.tokenCount : ℕ) < task.rowCount ∨
      limits.maximumTaskTokens < task.tokenCount ∨ (task.tokenCount : ℕ) ≠ sliceTokens ∨
      task.maximumDocumentTokens ≠ sliceMax ∨
      limits.maximumInputTokens < task.maximumDocumentTokens ∨
      (task.tokenCount : ℕ) < task.maximumDocumentTokens ∨ task.taskId ∈ scan.ids ∨
      task.resultPath ∈ scan.paths ∨ task.receiptPath ∈ task.resultPath :: scan.paths)
    (.invalid "embedding task v2 coverage")
  return ⟨task.ordinalEnd, task.taskId :: scan.ids,
    task.receiptPath :: task.resultPath :: scan.paths⟩

def validateV2Tasks (tasks : List EmbeddingTaskV2) (documentCount : U64) (limits : TaskLimits)
    (identity : TaskIdentityContext) : Result Unit := do
  let scan ← tasks.foldlM (validateV2Task prims limits identity) ⟨0, [], []⟩
  throwIf (scan.next ≠ documentCount ∨ ¬ (0 < (documentCount : ℕ) ↔ tasks ≠ []))
    (.invalid "embedding plan v2 coverage")

def EmbeddingPlanV2.limits (plan : EmbeddingPlanV2) : TaskLimits :=
  ⟨plan.maximumTaskTokens, plan.maximumTaskDocuments, plan.embeddingProfile.maximumInputTokens⟩

def EmbeddingPlanV2.identityContext (plan : EmbeddingPlanV2) : TaskIdentityContext :=
  ⟨plan.preparedCorpusSha256, plan.embeddingProfile.component.sha256,
    plan.executableTokenizer.artifact.sha256⟩

def EmbeddingPlanV2.validate (plan : EmbeddingPlanV2) : Result Unit := do
  requireSafeU64 plan.documentCount
  requireSafeU64 plan.maximumTaskTokens
  throwIf (plan.schemaVersion ≠ embeddingPlanV2Schema ∨ (plan.maximumTaskTokens : ℕ) = 0 ∨
      (plan.maximumTaskDocuments : ℕ) = 0)
    (.invalid "embedding plan v2 schema or limits")
  plan.dataset.validate
  plan.embeddingProfile.validate
  let _ ← formatDocumentInputExact plan.embeddingProfile.documentFormat "validation"
  plan.executableTokenizer.validateForProfile plan.embeddingProfile
  validateTokenCountMetadata plan
  validateV2Tasks prims plan.tasks plan.documentCount plan.limits plan.identityContext
  let digest ← componentDigest prims (toJson plan)
  throwIf (plan.componentSha256 ≠ digest) (.invalid "embedding plan v2 component digest")

/-- Sealing writes the plan's digest into it and validates the result. -/
def EmbeddingPlanV2.seal (plan : EmbeddingPlanV2) : Result EmbeddingPlanV2 := do
  let digest ← componentDigest prims (toJson plan)
  let sealed := { plan with componentSha256 := digest }
  sealed.validate prims
  return sealed

end Hashing

/-! ### Slices against the manifest -/

/-- Where each object starts in the corpus, by path. -/
abbrev ObjectStarts := SortedMap SafeRelativePath (ℕ × PreparedDocumentObject)

def insertObjectStart (state : ObjectStarts × ℕ) (object : PreparedDocumentObject) :
    Result (ObjectStarts × ℕ) := do
  let stop ← orThrow (checkedAdd 64 state.2 object.object.rows) (.invalid "document object ordinal")
  return (state.1.insert object.object.path (state.2, object), stop)

/-- One slice of a task: it lies inside its object and starts where the slice
before it stopped. -/
def validateV2SlicePlace (objectStarts : ObjectStarts) (task : EmbeddingTaskV2) (next : ℕ)
    (slice : EmbeddingInputSliceV2) : Result ℕ := do
  let (start, object) ← orThrow (objectStarts.get? slice.path) (.invalid "task v2 input object")
  let sliceEnd ← orThrow (checkedAdd 64 slice.rowOffset slice.rows)
    (.invalid "task v2 input slice")
  let globalStart ← orThrow (checkedAdd 64 start slice.rowOffset)
    (.invalid "task v2 input slice")
  let globalEnd ← orThrow (checkedAdd 64 start sliceEnd) (.invalid "task v2 input slice")
  throwIf (slice.objectSha256 ≠ object.object.sha256 ∨ (object.object.rows : ℕ) < sliceEnd ∨
      globalStart ≠ next ∨ (task.ordinalEnd : ℕ) < globalEnd)
    (.invalid "task v2 input slice binding")
  return globalEnd

def validateV2SlicesAgainstManifest (tasks : List EmbeddingTaskV2)
    (objects : List PreparedDocumentObject) : Result Unit := do
  let (objectStarts, _) ← objects.foldlM insertObjectStart (SortedMap.empty, 0)
  forM tasks fun task => do
    let next ← task.inputSlices.foldlM (validateV2SlicePlace objectStarts task) task.ordinalStart
    throwIf (next ≠ task.ordinalEnd) (.invalid "task v2 input slice coverage")

def EmbeddingPlanV2.validateManifestBinding (prims : Primitives) (plan : EmbeddingPlanV2)
    (prepared : PreparedCorpusManifest) : Result Unit := do
  plan.validate prims
  prepared.validate prims
  throwIf (plan.preparedCorpusSha256 ≠ prepared.componentSha256 ∨
      plan.dataset ≠ prepared.dataset ∨ plan.documentCount ≠ prepared.documentCount ∨
      plan.documentOrderSha256 ≠ prepared.documentOrderSha256)
    (.invalid "embedding plan v2 corpus binding")
  validateV2SlicesAgainstManifest plan.tasks prepared.documents

end LivefireRag.Pipeline
