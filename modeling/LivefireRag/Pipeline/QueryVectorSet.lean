import Mathlib.Data.Finset.Insert
import LivefireRag.Lib.Chunks
import LivefireRag.Lib.Float32
import LivefireRag.Lib.Matching
import LivefireRag.Lib.Seen
import LivefireRag.Pipeline.PlanTiling
import LivefireRag.Cloud.Bundle

/-!
# Sealed query vectors

The vectors of a query plan are written once, sealed by a manifest, and served only
to the exact requests of the plan. The plan is a list of request lines; the dense and
fused ones are semantic, and each of their ids has one vector.

A vector is the list of the bits of its 32-bit floats. What the files are read from
JSON with, and the test that a vector has unit length, which is a computation in
64-bit floats, are parameters.

`openWritten_iff`: what has been written opens again, and serves every semantic
request its vector, exactly when the manifest is not larger than a manifest may be.
`SealedQueryVectorSet.Indexed.servesUniquely`: a vector served without an id is the
vector of exactly one id.
-/

namespace LivefireRag.Pipeline

open Fallible Machine Seen Chunks Matching Cloud

def queryVectorSetSchema := "livefire.rag.query-vector-set/1"
def queryVectorSetPlan := "queries.jsonl"
def queryVectorSetVectors := "vectors.f32le"
def maxQueryPlanRows : ℕ := 10000
def maxQueryIdBytes : ℕ := 128
def maxQueryBytes : ℕ := 8192
def maxQueryPlanBytes : ℕ := 128 * 1024 * 1024
def maxManifestBytes : ℕ := 16 * 1024 * 1024
def maxVectorBytes : ℕ := 512 * 1024 * 1024

/-! ### The manifest -/

structure QueryVectorArtifact where
  path : SafeRelativePath
  bytes : U64
  sha256 : Digest
  deriving DecidableEq

instance : ToJson QueryVectorArtifact := ⟨fun artifact => .mkObject
  [("path", toJson artifact.path), ("bytes", toJson artifact.bytes),
    ("sha256", toJson artifact.sha256)]⟩

def QueryVectorArtifact.validate (artifact : QueryVectorArtifact) (expectedPath : String) :
    Result Unit :=
  throwIf (artifact.path.val ≠ expectedPath ∨ artifact.bytes = 0 ∨
    maxQueryPlanBytes < (artifact.bytes : ℕ)) (.invalid "query vector set artifact")

structure PackedQueryVectors where
  path : SafeRelativePath
  bytes : U64
  sha256 : Digest
  rows : U32
  dimensions : U32
  dtype : String
  normalization : String
  orderSha256 : Digest
  deriving DecidableEq

instance : ToJson PackedQueryVectors := ⟨fun vectors => .mkObject
  [("path", toJson vectors.path), ("bytes", toJson vectors.bytes),
    ("sha256", toJson vectors.sha256), ("rows", toJson vectors.rows),
    ("dimensions", toJson vectors.dimensions), ("dtype", toJson vectors.dtype),
    ("normalization", toJson vectors.normalization),
    ("order_sha256", toJson vectors.orderSha256)]⟩

structure QueryVectorExecutionBinding where
  embeddingProfile : ComponentRef
  embeddingPolicy : ComponentRef
  executionIdentitySha256 : Digest
  execution : RunpodExecutionIdentity
  executorImageBuildReceipt : ComponentRef
  deriving DecidableEq

instance : ToJson QueryVectorExecutionBinding := ⟨fun binding => .mkObject
  [("embedding_profile", toJson binding.embeddingProfile),
    ("embedding_policy", toJson binding.embeddingPolicy),
    ("execution_identity_sha256", toJson binding.executionIdentitySha256),
    ("execution", toJson binding.execution),
    ("executor_image_build_receipt", toJson binding.executorImageBuildReceipt)]⟩

structure QueryVectorRow where
  ordinal : U32
  queryId : String
  rawQuerySha256 : Digest
  composedQuerySha256 : Digest
  vectorSha256 : Digest
  deriving DecidableEq

instance : ToJson QueryVectorRow := ⟨fun row => .mkObject
  [("ordinal", toJson row.ordinal), ("query_id", toJson row.queryId),
    ("raw_query_sha256", toJson row.rawQuerySha256),
    ("composed_query_sha256", toJson row.composedQuerySha256),
    ("vector_sha256", toJson row.vectorSha256)]⟩

structure QueryVectorSetManifest where
  schemaVersion : String
  componentSha256 : Digest
  status : String
  queryPlan : QueryVectorArtifact
  requestRows : U32
  semanticRequestRows : U32
  execution : QueryVectorExecutionBinding
  vectors : PackedQueryVectors
  queries : List QueryVectorRow
  deriving DecidableEq

def QueryVectorSetManifest.body (manifest : QueryVectorSetManifest) : List (String × Json) :=
  [("schema_version", toJson manifest.schemaVersion), ("status", toJson manifest.status),
    ("query_plan", toJson manifest.queryPlan), ("request_rows", toJson manifest.requestRows),
    ("semantic_request_rows", toJson manifest.semanticRequestRows),
    ("execution", toJson manifest.execution), ("vectors", toJson manifest.vectors),
    ("queries", toJson manifest.queries)]

instance : ToJson QueryVectorSetManifest :=
  ⟨fun manifest => sealedObject manifest.componentSha256 manifest.body⟩

def vectorBytes (vector : List F32) : List UInt8 := vector.flatMap F32.toLeBytes

def ValidQueryId (value : String) : Prop :=
  ¬ Text.IsBlank value ∧ value.utf8ByteSize ≤ maxQueryIdBytes

instance : DecidablePred ValidQueryId := fun value => by unfold ValidQueryId; infer_instance

def queryVectorRowBytes (row : QueryVectorRow) : List UInt8 :=
  Bytes.toLeBytes 4 row.ordinal ++ Text.utf8 row.queryId ++ [0] ++
    Text.utf8 row.rawQuerySha256.val ++ Text.utf8 row.composedQuerySha256.val ++
    Text.utf8 row.vectorSha256.val

section Definitions

variable (prims : Primitives)

def vectorDigest (vector : List F32) : Digest := digestBytes prims (vectorBytes vector)

def queryVectorOrderDigest (rows : List QueryVectorRow) : Digest :=
  digestBytes prims (Text.utf8 "livefire.rag.query-vector-order/1" ++ [0] ++
    rows.flatMap queryVectorRowBytes)

def QueryVectorExecutionBinding.validate (binding : QueryVectorExecutionBinding) :
    Result Unit := do
  binding.embeddingProfile.validate
  binding.embeddingPolicy.validate
  binding.executorImageBuildReceipt.validate
  forM [binding.execution.executorImage, binding.execution.executorImageBuild,
    binding.execution.runtime, binding.execution.workerBinary, binding.execution.modelArtifact,
    binding.execution.embeddingProfile] ComponentRef.validate
  forM [binding.execution.accelerator.provider, binding.execution.accelerator.model,
    binding.execution.accelerator.architecture, binding.execution.accelerator.computeCapability,
    binding.execution.returnedModel] fun value =>
      throwIf (Text.IsBlank value) (.invalid "query vector execution identity")
  throwIf (binding.execution.accelerator.count ≠ 1 ∨
      binding.execution.embeddingProfile ≠ binding.embeddingProfile ∨
      binding.execution.executorImageBuild ≠ binding.executorImageBuildReceipt ∨
      binding.executionIdentitySha256 ≠ canonicalDigest prims (toJson binding.execution))
    (.invalid "query vector execution binding")

/-- One row of a manifest: its position, and an id that has not been seen. -/
def validateQueryVectorRow (ids : List String) (entry : QueryVectorRow × ℕ) :
    Result (List String) := do
  throwIf ((entry.1.ordinal : ℕ) ≠ entry.2 ∨ ¬ ValidQueryId entry.1.queryId)
    (.invalid "query vector row order")
  orThrow (insertNew ids entry.1.queryId) (.invalid "query vector row order")

def QueryVectorSetManifest.validate (manifest : QueryVectorSetManifest) : Result Unit := do
  manifest.queryPlan.validate queryVectorSetPlan
  manifest.execution.validate prims
  throwIf (manifest.schemaVersion ≠ queryVectorSetSchema ∨ manifest.status ≠ "complete" ∨
      manifest.requestRows = 0 ∨ manifest.semanticRequestRows = 0 ∨
      manifest.requestRows < manifest.semanticRequestRows ∨ manifest.queries = [] ∨
      (manifest.vectors.rows : ℕ) ≠ manifest.queries.length ∨
      manifest.vectors.path.val ≠ queryVectorSetVectors ∨ manifest.vectors.dtype ≠ "f32le" ∨
      manifest.vectors.normalization ∉ ["l2", "none"] ∨ manifest.vectors.dimensions = 0 ∨
      manifest.vectors.bytes = 0 ∨ maxVectorBytes < (manifest.vectors.bytes : ℕ))
    (.invalid "query vector set manifest")
  let values ← orThrow (checkedMul 64 manifest.vectors.rows manifest.vectors.dimensions)
    (.invalid "query vector byte count")
  let bytes ← orThrow (checkedMul 64 values 4) (.invalid "query vector byte count")
  throwIf ((manifest.vectors.bytes : ℕ) ≠ bytes) (.invalid "query vector set manifest")
  let _ ← manifest.queries.zipIdx.foldlM validateQueryVectorRow []
  let digest ← componentDigest prims (toJson manifest)
  throwIf (manifest.vectors.orderSha256 ≠ queryVectorOrderDigest prims manifest.queries ∨
    manifest.componentSha256 ≠ digest) (.invalid "query vector set binding")

def QueryVectorSetManifest.withDigest (manifest : QueryVectorSetManifest) :
    QueryVectorSetManifest :=
  { manifest with componentSha256 := canonicalDigest prims (.mkObject manifest.body) }

def QueryVectorSetManifest.seal (manifest : QueryVectorSetManifest) :
    Result QueryVectorSetManifest := do
  let digest ← componentDigest prims (toJson manifest)
  let manifest := { manifest with componentSha256 := digest }
  manifest.validate prims
  return manifest

/-! ### Query plans -/

/-- One request line. -/
structure PlanRow where
  queryId : String
  query : String
  mode : String
  topN : U64
  relations : List String
  deriving DecidableEq

structure PlannedQuery where
  queryId : String
  query : String
  deriving DecidableEq

/-- What a request asks for: its id, mode, result count and relations. -/
abbrev RequestSurface := String × String × U64 × List String

def PlanRow.surface (row : PlanRow) : RequestSurface :=
  (row.queryId, row.mode, row.topN, row.relations)

def PlanRow.IsSemantic (row : PlanRow) : Prop := row.mode ∈ ["dense", "fused"]

instance : DecidablePred PlanRow.IsSemantic := fun row => by
  unfold PlanRow.IsSemantic
  infer_instance

structure ParsedQueryPlan where
  requestRows : U32
  semanticRequestRows : U32
  uniqueSemanticQueries : List PlannedQuery
  surfaces : Finset RequestSurface

/-- What has been read of a plan. -/
structure PlanScan where
  requestRows : U32
  semanticRequestRows : U32
  queryById : SortedMap String (String × U64 × List String)
  modeSurfaces : Finset (String × String)
  surfaces : Finset RequestSurface
  uniqueSemanticQueries : List PlannedQuery

def PlanScan.empty : PlanScan := ⟨0, 0, SortedMap.empty, ∅, ∅, []⟩

/-- One line on its own. -/
def parsePlanRow (line : String) : Result PlanRow := do
  let value ← (prims.parseJson line).mapError .json
  let object ← orThrow value.asObject (.invalid "query vector query plan row")
  let queryId ← orThrow ((Json.field? object "query_id").bind Json.asStr)
    (.invalid "query vector query ID")
  let query ← orThrow ((Json.field? object "query").bind Json.asStr)
    (.invalid "query vector raw query")
  let mode ← orThrow ((Json.field? object "mode").bind Json.asStr)
    (.invalid "query vector query mode")
  let topN ← orThrow ((Json.field? object "top_n").bind Json.asU64)
    (.invalid "query vector query top_n")
  let elements ← orThrow ((Json.field? object "relations").bind Json.asArray)
    (.invalid "query vector query relations")
  let relations ← elements.mapM fun relation =>
    orThrow relation.asStr (.invalid "query vector query relation")
  throwIf (¬ ValidQueryId queryId ∨ Text.IsBlank query ∨ maxQueryBytes < query.utf8ByteSize ∨
      mode ∉ ["dense", "lexical", "fused"] ∨ topN = 0 ∨ 100 < topN ∨ object.length ≠ 5 ∨
      64 < relations.length ∨
      (∃ relation ∈ relations, Text.IsBlank relation ∨ 256 < relation.utf8ByteSize) ∨
      ¬ relations.IsChain (· < ·))
    (.invalid "query vector query plan row")
  return ⟨queryId, query, mode, topN, relations⟩

/-- The text, result count and relations of an id, which later rows of the id repeat. -/
def PlanScan.bindQuery (scan : PlanScan) (row : PlanRow) :
    Result (SortedMap String (String × U64 × List String)) :=
  match scan.queryById.get? row.queryId with
  | some existing => do
    throwIf (existing ≠ (row.query, row.topN, row.relations))
      (.invalid "query vector query ID reuse")
    return scan.queryById
  | none => .ok (scan.queryById.insert row.queryId (row.query, row.topN, row.relations))

/-- One line after the lines before it. -/
def scanPlanLine (scan : PlanScan) (line : String) : Result PlanScan := do
  let rows ← orThrow (checkedAdd 32 scan.requestRows 1) (.invalid "query vector query plan rows")
  let requestRows ← orThrow (toWidth 32 rows) (.invalid "query vector query plan rows")
  throwIf (maxQueryPlanRows < (requestRows : ℕ)) (.invalid "query vector query plan rows")
  let row ← parsePlanRow prims line
  throwIf ((row.queryId, row.mode) ∈ scan.modeSurfaces) (.invalid "query vector query plan row")
  let modeSurfaces := insert (row.queryId, row.mode) scan.modeSurfaces
  let surfaces := insert row.surface scan.surfaces
  let queryById ← scan.bindQuery row
  if row.IsSemantic then do
    let semantic ← orThrow (checkedAdd 32 scan.semanticRequestRows 1)
      (.invalid "query vector query plan rows")
    let semanticRequestRows ← orThrow (toWidth 32 semantic)
      (.invalid "query vector query plan rows")
    let uniqueSemanticQueries :=
      if ∃ planned ∈ scan.uniqueSemanticQueries, planned.queryId = row.queryId then
        scan.uniqueSemanticQueries
      else scan.uniqueSemanticQueries ++ [⟨row.queryId, row.query⟩]
    return ⟨requestRows, semanticRequestRows, queryById, modeSurfaces, surfaces,
      uniqueSemanticQueries⟩
  else
    return ⟨requestRows, scan.semanticRequestRows, queryById, modeSurfaces, surfaces,
      scan.uniqueSemanticQueries⟩

def parseQueryPlan (bytes : List UInt8) : Result ParsedQueryPlan := do
  throwIf (bytes.getLast? ≠ some 10) (.invalid "query vector query plan")
  let text ← orThrow (Text.fromUtf8 bytes) (.invalid "query vector query plan")
  let scan ← (Text.lines text).foldlM (scanPlanLine prims) PlanScan.empty
  throwIf (scan.requestRows = 0 ∨ scan.semanticRequestRows = 0)
    (.invalid "query vector query plan rows")
  return ⟨scan.requestRows, scan.semanticRequestRows, scan.uniqueSemanticQueries, scan.surfaces⟩

/-! ### Writing a set -/

structure QueryVectorSetInput where
  queryId : String
  rawQuery : String
  composedQuery : String
  vector : List F32
  deriving DecidableEq

/-- The files of a set, by their fixed names. -/
structure QueryVectorFiles where
  manifest : List UInt8
  plan : List UInt8
  vectors : List UInt8

variable (unitNorm : List F32 → Bool)

def validateVector (vector : List F32) (normalization : String) : Result Unit := do
  throwIf (vector = [] ∨ ∃ value ∈ vector, ¬ F32.IsFinite value)
    (.invalid "query vector values")
  throwIf (normalization = "l2" ∧ ¬ unitNorm vector) (.invalid "query vector normalization")

/-- The row of one input, after it has been checked against the plan. -/
def writeQueryVector (dimensions : U32) (normalization : String)
    (entry : (PlannedQuery × QueryVectorSetInput) × ℕ) : Result QueryVectorRow := do
  let ((planned, input), ordinal) := entry
  throwIf (planned.queryId ≠ input.queryId ∨ planned.query ≠ input.rawQuery)
    (.invalid "query vector query plan order")
  throwIf (input.composedQuery = "" ∨ 16384 < input.composedQuery.utf8ByteSize ∨
    input.vector.length ≠ (dimensions : ℕ)) (.invalid "query vector set input")
  validateVector unitNorm input.vector normalization
  let ordinal ← orThrow (toWidth 32 ordinal) (.invalid "query vector ordinal")
  return {
    ordinal := ordinal
    queryId := input.queryId
    rawQuerySha256 := digestBytes prims (Text.utf8 input.rawQuery)
    composedQuerySha256 := digestBytes prims (Text.utf8 input.composedQuery)
    vectorSha256 := vectorDigest prims input.vector }

def writeQueryVectorSet (queryPlanBytes : List UInt8) (execution : QueryVectorExecutionBinding)
    (dimensions : U32) (normalization : String) (inputs : List QueryVectorSetInput) :
    Result (QueryVectorSetManifest × QueryVectorFiles) := do
  execution.validate prims
  throwIf (inputs = [] ∨ maxQueryPlanRows < inputs.length ∨ dimensions = 0 ∨
    normalization ∉ ["l2", "none"]) (.invalid "query vector set input")
  throwIf (maxQueryPlanBytes < queryPlanBytes.length) (.invalid "query vector query plan size")
  let parsed ← parseQueryPlan prims queryPlanBytes
  throwIf (parsed.uniqueSemanticQueries.length ≠ inputs.length)
    (.invalid "query vector query plan coverage")
  let rows ← (parsed.uniqueSemanticQueries.zip inputs).zipIdx.mapM
    (writeQueryVector prims unitNorm dimensions normalization)
  let vectors := inputs.flatMap fun input => vectorBytes input.vector
  throwIf (vectors = [] ∨ maxVectorBytes < vectors.length) (.invalid "query vector byte count")
  let vectorLength ← orThrow (toWidth 64 vectors.length) (.invalid "query vector byte count")
  let planLength ← orThrow (toWidth 64 queryPlanBytes.length) (.invalid "query plan byte count")
  let rowCount ← orThrow (toWidth 32 rows.length) (.invalid "query vector row count")
  let zero ← Digest.new (String.ofList (List.replicate 64 '0'))
  let planPath ← SafeRelativePath.new queryVectorSetPlan
  let vectorPath ← SafeRelativePath.new queryVectorSetVectors
  let manifest ← QueryVectorSetManifest.seal prims {
    schemaVersion := queryVectorSetSchema
    componentSha256 := zero
    status := "complete"
    queryPlan := ⟨planPath, planLength, digestBytes prims queryPlanBytes⟩
    requestRows := parsed.requestRows
    semanticRequestRows := parsed.semanticRequestRows
    execution := execution
    vectors := {
      path := vectorPath
      bytes := vectorLength
      sha256 := digestBytes prims vectors
      rows := rowCount
      dimensions := dimensions
      dtype := "f32le"
      normalization := normalization
      orderSha256 := queryVectorOrderDigest prims rows }
    queries := rows }
  return (manifest, ⟨prims.canonicalJsonBytes (toJson manifest), queryPlanBytes, vectors⟩)

/-! ### Opening a set -/

structure SealedQueryVectorSet where
  manifest : QueryVectorSetManifest
  vectors : List F32
  byQueryId : SortedMap String ℕ
  requestSurfaces : Finset RequestSurface

def decodeVectors (bytes : List UInt8) : Result (List F32) := do
  throwIf (bytes.length % 4 ≠ 0) (.invalid "query vector packed object")
  return (chunksExact 4 bytes).map F32.ofLeBytes

/-- One row of vectors against the manifest. -/
def checkVectorRow (manifest : QueryVectorSetManifest) (entry : List F32 × ℕ) : Result Unit := do
  validateVector unitNorm entry.1 manifest.vectors.normalization
  -- indexing past the rows of the manifest aborts
  let row ← orThrow manifest.queries[entry.2]? .aborted
  throwIf (vectorDigest prims entry.1 ≠ row.vectorSha256) (.invalid "query vector row digest")

variable (readManifest : List UInt8 → Result QueryVectorSetManifest)

def SealedQueryVectorSet.open (files : QueryVectorFiles) (expectedProfile : ComponentRef)
    (expectedReturnedModel : String) (expectedDimensions : U32) (expectedNormalization : String)
    (expectedQueryPlan : Option (List UInt8)) : Result SealedQueryVectorSet := do
  throwIf (files.manifest = [] ∨ maxManifestBytes < files.manifest.length)
    (.invalid "query vector set manifest file")
  let manifest ← readManifest files.manifest
  manifest.validate prims
  throwIf (manifest.execution.embeddingProfile ≠ expectedProfile ∨
      manifest.execution.execution.returnedModel ≠ expectedReturnedModel ∨
      manifest.vectors.dimensions ≠ expectedDimensions ∨
      manifest.vectors.normalization ≠ expectedNormalization)
    (.invalid "query vector profile binding")
  throwIf (files.plan.length ≠ (manifest.queryPlan.bytes : ℕ) ∨
    digestBytes prims files.plan ≠ manifest.queryPlan.sha256)
    (.invalid "query vector set artifact binding")
  throwIf (∃ expected ∈ expectedQueryPlan, expected.length ≠ (manifest.queryPlan.bytes : ℕ) ∨
    digestBytes prims expected ≠ manifest.queryPlan.sha256)
    (.invalid "query vector query plan binding")
  let plan ← parseQueryPlan prims files.plan
  throwIf (plan.requestRows ≠ manifest.requestRows ∨
      plan.semanticRequestRows ≠ manifest.semanticRequestRows ∨
      plan.uniqueSemanticQueries.length ≠ manifest.queries.length)
    (.invalid "query vector query plan coverage")
  forM (plan.uniqueSemanticQueries.zip manifest.queries) fun entry =>
    throwIf (entry.1.queryId ≠ entry.2.queryId ∨
      digestBytes prims (Text.utf8 entry.1.query) ≠ entry.2.rawQuerySha256)
      (.invalid "query vector query plan order")
  throwIf (files.vectors.length ≠ (manifest.vectors.bytes : ℕ) ∨
    digestBytes prims files.vectors ≠ manifest.vectors.sha256)
    (.invalid "query vector packed object")
  let vectors ← decodeVectors files.vectors
  forM (chunksExact manifest.vectors.dimensions vectors).zipIdx
    (checkVectorRow prims unitNorm manifest)
  return {
    manifest := manifest
    vectors := vectors
    byQueryId := SortedMap.ofList (manifest.queries.zipIdx.map fun entry =>
      (entry.1.queryId, entry.2))
    requestSurfaces := plan.surfaces }

/-! ### Serving vectors -/

/-- The vector of a row. -/
def SealedQueryVectorSet.vectorAt (sealedSet : SealedQueryVectorSet) (ordinal : ℕ) :
    Result (List F32) := do
  let dimensions := (sealedSet.manifest.vectors.dimensions : ℕ)
  let start ← orThrow (checkedMul 64 ordinal dimensions) (.invalid "query vector offset")
  let stop ← orThrow (checkedAdd 64 start dimensions) (.invalid "query vector offset")
  orThrow (rowRange sealedSet.vectors start stop) (.invalid "query vector coverage")

def SealedQueryVectorSet.vectorFor (sealedSet : SealedQueryVectorSet)
    (queryId rawQuery composedQuery : String) : Result (List F32) := do
  let ordinal ← orThrow (sealedSet.byQueryId.get? queryId)
    (.invalid "query is not in sealed vector set")
  let row ← orThrow sealedSet.manifest.queries[ordinal]? .aborted
  throwIf (row.rawQuerySha256 ≠ digestBytes prims (Text.utf8 rawQuery) ∨
    row.composedQuerySha256 ≠ digestBytes prims (Text.utf8 composedQuery))
    (.invalid "sealed query surface binding")
  sealedSet.vectorAt ordinal

def SealedQueryVectorSet.vectorForRequest (sealedSet : SealedQueryVectorSet)
    (queryId rawQuery composedQuery mode : String) (topN : U64) (relations : List String) :
    Result (List F32) := do
  throwIf ((queryId, mode, topN, relations) ∉ sealedSet.requestSurfaces)
    (.invalid "sealed query request surface")
  sealedSet.vectorFor prims queryId rawQuery composedQuery

/-- A row of the manifest answers a request without an id. -/
def SealedQueryVectorSet.Answers (sealedSet : SealedQueryVectorSet)
    (rawQuery composedQuery mode : String) (topN : U64) (relations : List String)
    (row : QueryVectorRow) : Prop :=
  row.rawQuerySha256 = digestBytes prims (Text.utf8 rawQuery) ∧
    row.composedQuerySha256 = digestBytes prims (Text.utf8 composedQuery) ∧
    (row.queryId, mode, topN, relations) ∈ sealedSet.requestSurfaces

instance (sealedSet : SealedQueryVectorSet) (rawQuery composedQuery mode : String) (topN : U64)
    (relations : List String) :
    DecidablePred (sealedSet.Answers prims rawQuery composedQuery mode topN relations) :=
  fun row => by
    unfold SealedQueryVectorSet.Answers
    infer_instance

def SealedQueryVectorSet.vectorForUniqueRequest (sealedSet : SealedQueryVectorSet)
    (rawQuery composedQuery mode : String) (topN : U64) (relations : List String) :
    Result (List F32) := do
  let found ← sealedSet.manifest.queries.zipIdx.foldlM (fun found entry => do
    if sealedSet.Answers prims rawQuery composedQuery mode topN relations entry.1 then do
      throwIf (found ≠ none) (.invalid "ambiguous sealed query request")
      pure (some entry.2)
    else pure found) (none : Option ℕ)
  let ordinal ← orThrow found (.invalid "query is not in sealed vector set")
  sealedSet.vectorAt ordinal

end Definitions

section Plans

variable {prims : Primitives}

/-! ### What an accepted plan says -/

theorem parsePlanRow_valid {line : String} {row : PlanRow}
    (h : parsePlanRow prims line = .ok row) : ValidQueryId row.queryId := by
  simp only [parsePlanRow, bind_eq_ok, exists_unit, throwIf_eq_ok, pure_eq_ok, not_or,
    not_not] at h
  obtain ⟨_, -, _, -, _, -, _, -, _, -, _, -, _, -, _, -, ⟨hvalid, -⟩, rfl⟩ := h
  exact hvalid

theorem bindQuery_ok {scan : PlanScan} {row : PlanRow}
    {queryById : SortedMap String (String × U64 × List String)}
    (h : scan.bindQuery row = .ok queryById) :
    queryById.get? row.queryId = some (row.query, row.topN, row.relations) ∧
      ∀ queryId entry, scan.queryById.get? queryId = some entry →
        queryById.get? queryId = some entry := by
  rw [PlanScan.bindQuery] at h
  split at h
  · next existing hexisting =>
    simp only [bind_eq_ok, exists_unit, throwIf_eq_ok, not_not, pure_eq_ok] at h
    obtain ⟨rfl, rfl⟩ := h
    exact ⟨hexisting, fun _ _ hentry => hentry⟩
  · next hnone =>
    obtain rfl := Except.ok.inj h
    refine ⟨by rw [SortedMap.get?_insert, if_pos rfl], fun queryId entry hentry => ?_⟩
    rw [SortedMap.get?_insert, if_neg, hentry]
    rintro rfl
    rw [hnone] at hentry
    cases hentry

/-- One line: its row, and what the scan has become. -/
theorem scanPlanLine_ok {scan after : PlanScan} {line : String}
    (h : scanPlanLine prims scan line = .ok after) :
    ∃ row, parsePlanRow prims line = .ok row ∧
      (after.requestRows : ℕ) = scan.requestRows + 1 ∧
      (after.semanticRequestRows : ℕ) =
        scan.semanticRequestRows + (if row.IsSemantic then 1 else 0) ∧
      after.surfaces = insert row.surface scan.surfaces ∧
      after.queryById.get? row.queryId = some (row.query, row.topN, row.relations) ∧
      (∀ queryId entry, scan.queryById.get? queryId = some entry →
        after.queryById.get? queryId = some entry) ∧
      after.uniqueSemanticQueries =
        if row.IsSemantic ∧ ¬ ∃ planned ∈ scan.uniqueSemanticQueries, planned.queryId = row.queryId
        then scan.uniqueSemanticQueries ++ [⟨row.queryId, row.query⟩]
        else scan.uniqueSemanticQueries := by
  simp only [scanPlanLine, bind_eq_ok, exists_unit, orThrow_eq_ok, checkedAdd_eq_some,
    toWidth_eq_some, throwIf_eq_ok] at h
  obtain ⟨rows, ⟨-, rfl⟩, requestRows, hrequest, -, row, hrow, -, queryById, hby, h⟩ := h
  have hlookup := bindQuery_ok hby
  refine ⟨row, hrow, ?_⟩
  by_cases hsemantic : row.IsSemantic
  · simp only [if_pos hsemantic, bind_eq_ok, orThrow_eq_ok, checkedAdd_eq_some, toWidth_eq_some,
      pure_eq_ok] at h
    obtain ⟨semantic, ⟨-, rfl⟩, semanticRows, hsemanticRows, rfl⟩ := h
    refine ⟨hrequest, by rw [if_pos hsemantic, hsemanticRows], rfl, hlookup.1, hlookup.2, ?_⟩
    by_cases hseen : ∃ planned ∈ scan.uniqueSemanticQueries, planned.queryId = row.queryId
    · rw [if_pos hseen, if_neg fun hnot => hnot.2 hseen]
    · rw [if_neg hseen, if_pos ⟨hsemantic, hseen⟩]
  · simp only [if_neg hsemantic, pure_eq_ok] at h
    subst h
    refine ⟨hrequest, by rw [if_neg hsemantic, Nat.add_zero], rfl, hlookup.1, hlookup.2, ?_⟩
    rw [if_neg fun hnot => hsemantic hnot.1]

/-- What the lines so far, of the given rows, have left. -/
structure Scanned (rows : List PlanRow) (scan : PlanScan) : Prop where
  requestRows : (scan.requestRows : ℕ) = rows.length
  semantic_le : (scan.semanticRequestRows : ℕ) ≤ rows.length
  surfaces : ∀ row ∈ rows, row.surface ∈ scan.surfaces
  lookup : ∀ row ∈ rows,
    scan.queryById.get? row.queryId = some (row.query, row.topN, row.relations)
  planned : ∀ row ∈ rows, row.IsSemantic →
    ∃ planned ∈ scan.uniqueSemanticQueries, planned.queryId = row.queryId
  origin : ∀ planned ∈ scan.uniqueSemanticQueries, ValidQueryId planned.queryId ∧
    ∃ entry, scan.queryById.get? planned.queryId = some (planned.query, entry)
  nodup : (scan.uniqueSemanticQueries.map (·.queryId)).Nodup

theorem Scanned.step {rows : List PlanRow} {scan after : PlanScan} {line : String}
    (h : Scanned rows scan) (hstep : scanPlanLine prims scan line = .ok after) :
    ∃ row, parsePlanRow prims line = .ok row ∧ Scanned (rows ++ [row]) after := by
  obtain ⟨row, hrow, hrequest, hsemantic, hsurfaces, hget, hkeep, hunique⟩ := scanPlanLine_ok hstep
  have hlength : (rows ++ [row]).length = rows.length + 1 := by
    rw [List.length_append, List.length_singleton]
  have hmono : ∀ planned ∈ scan.uniqueSemanticQueries, planned ∈ after.uniqueSemanticQueries := by
    intro planned hplanned
    rw [hunique]
    split
    · exact List.mem_append_left _ hplanned
    · exact hplanned
  refine ⟨row, hrow, ?_, ?_, ?_, ?_, ?_, ?_, ?_⟩
  · rw [hrequest, h.requestRows, hlength]
  · have hle := h.semantic_le
    rw [hsemantic, hlength]
    split <;> omega
  · rw [hsurfaces]
    intro other hother
    rcases List.mem_append.mp hother with hother | hother
    · exact Finset.mem_insert_of_mem (h.surfaces other hother)
    · rw [List.mem_singleton.mp hother]
      exact Finset.mem_insert_self _ _
  · intro other hother
    rcases List.mem_append.mp hother with hother | hother
    · exact hkeep _ _ (h.lookup other hother)
    · rw [List.mem_singleton.mp hother, hget]
  · intro other hother hsemanticRow
    rcases List.mem_append.mp hother with hother | hother
    · obtain ⟨planned, hplanned, heq⟩ := h.planned other hother hsemanticRow
      exact ⟨planned, hmono planned hplanned, heq⟩
    · rw [List.mem_singleton.mp hother] at hsemanticRow ⊢
      by_cases hseen : ∃ planned ∈ scan.uniqueSemanticQueries, planned.queryId = row.queryId
      · obtain ⟨planned, hplanned, heq⟩ := hseen
        exact ⟨planned, hmono planned hplanned, heq⟩
      · rw [hunique, if_pos ⟨hsemanticRow, hseen⟩]
        exact ⟨_, List.mem_append_right _ (List.mem_singleton_self _), rfl⟩
  · intro planned hplanned
    have hcase : planned ∈ scan.uniqueSemanticQueries ∨ planned = ⟨row.queryId, row.query⟩ := by
      rw [hunique] at hplanned
      split at hplanned
      · exact (List.mem_append.mp hplanned).imp_right List.mem_singleton.mp
      · exact .inl hplanned
    rcases hcase with hold | rfl
    · obtain ⟨hvalid, entry, hentry⟩ := h.origin planned hold
      exact ⟨hvalid, entry, hkeep _ _ hentry⟩
    · exact ⟨parsePlanRow_valid hrow, _, hget⟩
  · rw [hunique]
    split
    · next hnew =>
      rw [List.map_append, List.nodup_append]
      refine ⟨h.nodup, List.nodup_singleton _, fun queryId hqueryId other hother => ?_⟩
      obtain ⟨planned, hplanned, rfl⟩ := List.mem_map.mp hqueryId
      rw [List.map_singleton, List.mem_singleton] at hother
      rintro heq
      exact hnew.2 ⟨planned, hplanned, heq.trans hother⟩
    · exact h.nodup

/-- The rows of a plan. -/
def planRows (prims : Primitives) (bytes : List UInt8) : Result (List PlanRow) := do
  let text ← orThrow (Text.fromUtf8 bytes) (.invalid "query vector query plan")
  (Text.lines text).mapM (parsePlanRow prims)

/-- What the rows of an accepted plan have become. -/
structure PlanAccepted (rows : List PlanRow) (plan : ParsedQueryPlan) : Prop where
  semantic_pos : plan.semanticRequestRows ≠ 0
  request_pos : plan.requestRows ≠ 0
  semantic_le : plan.semanticRequestRows ≤ plan.requestRows
  surfaces : ∀ row ∈ rows, row.surface ∈ plan.surfaces
  planned : ∀ row ∈ rows, row.IsSemantic →
    ∃ planned ∈ plan.uniqueSemanticQueries, planned.queryId = row.queryId ∧
      planned.query = row.query
  valid : ∀ planned ∈ plan.uniqueSemanticQueries, ValidQueryId planned.queryId
  nodup : (plan.uniqueSemanticQueries.map (·.queryId)).Nodup

theorem parseQueryPlan_accepted {bytes : List UInt8} {plan : ParsedQueryPlan}
    (h : parseQueryPlan prims bytes = .ok plan) :
    ∃ rows, planRows prims bytes = .ok rows ∧ PlanAccepted rows plan := by
  simp only [parseQueryPlan, bind_eq_ok, exists_unit, throwIf_eq_ok, orThrow_eq_ok, not_or,
    pure_eq_ok] at h
  obtain ⟨-, text, htext, scan, hrun, ⟨hrequest, hsemantic⟩, rfl⟩ := h
  have hinvariant := foldlM_invariant (P := fun pre scan => ∃ rows,
      pre.mapM (parsePlanRow prims) = .ok rows ∧ Scanned rows scan)
    ⟨[], rfl, rfl, le_rfl, by simp, by simp, by simp, by simp [PlanScan.empty],
      by simp [PlanScan.empty]⟩ ?_ hrun
  · obtain ⟨rows, hrows, hscanned⟩ := hinvariant
    refine ⟨rows, ?_, hsemantic, hrequest, ?_, hscanned.surfaces, ?_,
      fun planned hplanned => (hscanned.origin planned hplanned).1, hscanned.nodup⟩
    · rw [planRows, htext]
      exact hrows
    · rw [Fin.le_def, hscanned.requestRows]
      exact hscanned.semantic_le
    · intro row hrow hsemanticRow
      obtain ⟨planned, hplanned, heq⟩ := hscanned.planned row hrow hsemanticRow
      refine ⟨planned, hplanned, heq, ?_⟩
      -- both texts are the one bound to the id
      obtain ⟨-, entry, hentry⟩ := hscanned.origin planned hplanned
      rw [heq, hscanned.lookup row hrow] at hentry
      exact (Prod.mk.inj (Option.some.inj hentry)).1.symm
  · rintro pre line post scan after - ⟨rows, hrows, hscanned⟩ hstep
    obtain ⟨row, hrow, hscanned'⟩ := hscanned.step hstep
    refine ⟨rows ++ [row], ?_, hscanned'⟩
    rw [List.mapM_append, hrows, List.mapM_cons, hrow]
    rfl

end Plans

/-! ### What has been written -/

section Written

variable {prims : Primitives} {unitNorm : List F32 → Bool}

/-- The row of an input at a position. -/
def inputRow (prims : Primitives) (entry : QueryVectorSetInput × ℕ) : QueryVectorRow where
  ordinal := ⟨entry.2 % 2 ^ 32, Nat.mod_lt _ (by decide)⟩
  queryId := entry.1.queryId
  rawQuerySha256 := digestBytes prims (Text.utf8 entry.1.rawQuery)
  composedQuerySha256 := digestBytes prims (Text.utf8 entry.1.composedQuery)
  vectorSha256 := vectorDigest prims entry.1.vector

/-- An input that supplies the vector of a planned query. -/
structure Supplies (unitNorm : List F32 → Bool) (dimensions : U32) (normalization : String)
    (planned : PlannedQuery) (input : QueryVectorSetInput) : Prop where
  queryId : planned.queryId = input.queryId
  query : planned.query = input.rawQuery
  composed : ¬ (input.composedQuery = "" ∨ 16384 < input.composedQuery.utf8ByteSize)
  length : input.vector.length = (dimensions : ℕ)
  valid : validateVector unitNorm input.vector normalization = .ok ()

theorem writeQueryVector_eq_ok {dimensions : U32} {normalization : String}
    {planned : PlannedQuery} {input : QueryVectorSetInput} {ordinal : ℕ} {row : QueryVectorRow}
    (hordinal : ordinal < 2 ^ 32) :
    writeQueryVector prims unitNorm dimensions normalization ((planned, input), ordinal) =
        .ok row ↔
      Supplies unitNorm dimensions normalization planned input ∧
      row = inputRow prims (input, ordinal) := by
  have hwidth : ∀ value : U32, (value : ℕ) = ordinal ↔
      value = ⟨ordinal % 2 ^ 32, Nat.mod_lt _ (by decide)⟩ := by
    intro value
    rw [Fin.ext_iff]
    show (value : ℕ) = ordinal ↔ (value : ℕ) = ordinal % 2 ^ 32
    rw [Nat.mod_eq_of_lt hordinal]
  simp only [writeQueryVector, bind_eq_ok, exists_unit, throwIf_eq_ok, orThrow_eq_ok,
    toWidth_eq_some, pure_eq_ok, not_or, not_not, hwidth, exists_eq_left]
  constructor
  · rintro ⟨⟨hid, hquery⟩, ⟨hcomposed, hlong, hlength⟩, hvalid, rfl⟩
    exact ⟨⟨hid, hquery, not_or.mpr ⟨hcomposed, hlong⟩, hlength, hvalid⟩, rfl⟩
  · rintro ⟨⟨hid, hquery, hcomposed, hlength, hvalid⟩, rfl⟩
    obtain ⟨hempty, hlong⟩ := not_or.mp hcomposed
    exact ⟨⟨hid, hquery⟩, ⟨hempty, hlong, hlength⟩, hvalid, rfl⟩

/-- The loop over the inputs writes the row of each, and accepts them when each supplies
its planned query. -/
theorem mapM_writeQueryVector {dimensions : U32} {normalization : String}
    {planned : List PlannedQuery} {inputs : List QueryVectorSetInput} {offset : ℕ}
    {rows : List QueryVectorRow} (hlength : planned.length = inputs.length)
    (hoffset : offset + inputs.length ≤ 2 ^ 32) :
    ((planned.zip inputs).zipIdx offset).mapM
        (writeQueryVector prims unitNorm dimensions normalization) = .ok rows ↔
      List.Forall₂ (Supplies unitNorm dimensions normalization) planned inputs ∧
      rows = (inputs.zipIdx offset).map (inputRow prims) := by
  rw [mapM_eq_ok]
  induction planned generalizing inputs offset rows with
  | nil =>
    obtain rfl := List.length_eq_zero_iff.mp hlength.symm
    simp [eq_comm]
  | cons first planned ih =>
    cases inputs with
    | nil => cases hlength
    | cons input inputs =>
      rw [List.length_cons] at hoffset
      have hrest := fun rows => @ih inputs (offset + 1) rows (Nat.succ.inj hlength) (by omega)
      rw [List.zip_cons_cons, List.zipIdx_cons, List.forall₂_cons_left_iff, List.zipIdx_cons,
        List.map_cons, List.forall₂_cons]
      constructor
      · rintro ⟨row, rest, hrow, hrows, rfl⟩
        obtain ⟨hsupplies, rfl⟩ := (writeQueryVector_eq_ok (by omega)).mp hrow
        obtain ⟨hall, rfl⟩ := (hrest rest).mp hrows
        exact ⟨⟨hsupplies, hall⟩, rfl⟩
      · rintro ⟨⟨hsupplies, hall⟩, rfl⟩
        exact ⟨_, _, (writeQueryVector_eq_ok (by omega)).mpr ⟨hsupplies, rfl⟩,
          (hrest _).mpr ⟨hall, rfl⟩, rfl⟩

def planPath : SafeRelativePath := ⟨queryVectorSetPlan, by decide⟩
def vectorsPath : SafeRelativePath := ⟨queryVectorSetVectors, by decide⟩

/-- The packed vectors of the inputs. -/
def inputVectors (inputs : List QueryVectorSetInput) : List UInt8 :=
  inputs.flatMap fun input => vectorBytes input.vector

/-- The manifest that a plan, an execution and inputs describe. -/
def describedManifest (prims : Primitives) (queryPlanBytes : List UInt8) (parsed : ParsedQueryPlan)
    (execution : QueryVectorExecutionBinding) (dimensions : U32) (normalization : String)
    (inputs : List QueryVectorSetInput) : QueryVectorSetManifest :=
  QueryVectorSetManifest.withDigest prims {
    schemaVersion := queryVectorSetSchema
    componentSha256 := ⟨String.ofList (List.replicate 64 '0'), by decide⟩
    status := "complete"
    queryPlan := ⟨planPath, ⟨queryPlanBytes.length % 2 ^ 64, Nat.mod_lt _ (by decide)⟩,
      digestBytes prims queryPlanBytes⟩
    requestRows := parsed.requestRows
    semanticRequestRows := parsed.semanticRequestRows
    execution := execution
    vectors := {
      path := vectorsPath
      bytes := ⟨(inputVectors inputs).length % 2 ^ 64, Nat.mod_lt _ (by decide)⟩
      sha256 := digestBytes prims (inputVectors inputs)
      rows := ⟨inputs.length % 2 ^ 32, Nat.mod_lt _ (by decide)⟩
      dimensions := dimensions
      dtype := "f32le"
      normalization := normalization
      orderSha256 := queryVectorOrderDigest prims (inputs.zipIdx.map (inputRow prims)) }
    queries := inputs.zipIdx.map (inputRow prims) }

/-- What the writer accepts. -/
structure WriteAccepted (prims : Primitives) (unitNorm : List F32 → Bool)
    (queryPlanBytes : List UInt8) (parsed : ParsedQueryPlan)
    (execution : QueryVectorExecutionBinding) (dimensions : U32) (normalization : String)
    (inputs : List QueryVectorSetInput) : Prop where
  execution_ok : execution.validate prims = .ok ()
  inputs_ne : inputs ≠ []
  inputs_le : inputs.length ≤ maxQueryPlanRows
  dimensions_ne : dimensions ≠ 0
  normalization_mem : normalization ∈ ["l2", "none"]
  plan_le : queryPlanBytes.length ≤ maxQueryPlanBytes
  parsed_ok : parseQueryPlan prims queryPlanBytes = .ok parsed
  supplied : List.Forall₂ (Supplies unitNorm dimensions normalization)
    parsed.uniqueSemanticQueries inputs
  vectors_ne : inputVectors inputs ≠ []
  vectors_le : (inputVectors inputs).length ≤ maxVectorBytes

theorem seal_eq_ok {draft manifest : QueryVectorSetManifest} :
    draft.seal prims = .ok manifest ↔
      manifest = draft.withDigest prims ∧ (draft.withDigest prims).validate prims = .ok () := by
  have hdigest : componentDigest prims (toJson draft) =
      .ok (canonicalDigest prims (.mkObject draft.body)) :=
    componentDigest_sealedObject prims (by
      simp only [QueryVectorSetManifest.body, List.map_cons, List.map_nil]
      decide)
  rw [QueryVectorSetManifest.seal, hdigest, ok_bind, bind_eq_ok]
  constructor
  · rintro ⟨⟨⟩, hvalid, hmanifest⟩
    exact ⟨(pure_eq_ok.mp hmanifest).symm, hvalid⟩
  · rintro ⟨rfl, hvalid⟩
    exact ⟨(), hvalid, rfl⟩

theorem vectorBytes_eq_flatten (vector : List F32) :
    vectorBytes vector = (vector.map F32.toLeBytes).flatten := List.flatMap_def ..

theorem length_toLeBytes_of_mem {vector : List F32} :
    ∀ bytes ∈ vector.map F32.toLeBytes, bytes.length = 4 := by
  intro bytes hbytes
  obtain ⟨value, -, rfl⟩ := List.mem_map.mp hbytes
  exact Bytes.length_toLeBytes 4 _

theorem length_vectorBytes (vector : List F32) :
    (vectorBytes vector).length = vector.length * 4 := by
  rw [vectorBytes_eq_flatten, length_flatten_of_length length_toLeBytes_of_mem, List.length_map]

/-- A vector is read back from its bytes bit by bit. -/
theorem decodeVectors_vectorBytes (vector : List F32) :
    decodeVectors (vectorBytes vector) = .ok vector := by
  have hlength : ¬ (vectorBytes vector).length % 4 ≠ 0 := by
    rw [length_vectorBytes, Nat.mul_mod_left]
    exact not_not.mpr rfl
  have hvalue : ∀ value ∈ vector, (F32.ofLeBytes ∘ F32.toLeBytes) value = id value := by
    intro value _
    refine Fin.ext ?_
    show Bytes.ofLeBytes (Bytes.toLeBytes 4 value) % 2 ^ 32 = (value : ℕ)
    rw [Bytes.ofLeBytes_toLeBytes, Nat.mod_mod_of_dvd _ (by decide),
      Nat.mod_eq_of_lt value.isLt]
  rw [decodeVectors, throwIf_bind_of_not hlength, vectorBytes_eq_flatten,
    chunksExact_flatten (by decide) length_toLeBytes_of_mem, List.map_map,
    List.map_congr_left hvalue, List.map_id]
  rfl

variable {queryPlanBytes : List UInt8} {parsed : ParsedQueryPlan}
  {execution : QueryVectorExecutionBinding} {dimensions : U32} {normalization : String}
  {inputs : List QueryVectorSetInput}

theorem inputVectors_eq (inputs : List QueryVectorSetInput) :
    inputVectors inputs = vectorBytes (inputs.map (·.vector)).flatten := by
  rw [inputVectors, vectorBytes, ← List.flatMap_def, List.flatMap_assoc]
  rfl

theorem WriteAccepted.length_vector (h : WriteAccepted prims unitNorm queryPlanBytes parsed
    execution dimensions normalization inputs) :
    ∀ vector ∈ inputs.map (·.vector), vector.length = (dimensions : ℕ) := by
  intro vector hvector
  obtain ⟨input, hinput, rfl⟩ := List.mem_map.mp hvector
  obtain ⟨planned, -, hsupplies⟩ := exists_left_of_mem h.supplied hinput
  exact hsupplies.length

theorem WriteAccepted.length_inputVectors (h : WriteAccepted prims unitNorm queryPlanBytes parsed
    execution dimensions normalization inputs) :
    (inputVectors inputs).length = inputs.length * dimensions * 4 := by
  rw [inputVectors_eq, length_vectorBytes, length_flatten_of_length h.length_vector,
    List.length_map]

/-- The planned ids of accepted inputs. -/
theorem WriteAccepted.queryIds (h : WriteAccepted prims unitNorm queryPlanBytes parsed
    execution dimensions normalization inputs) :
    inputs.map (·.queryId) = parsed.uniqueSemanticQueries.map (·.queryId) :=
  map_eq_of_forall₂ (fun _ _ hsupplies => hsupplies.queryId.symm) h.supplied

theorem map_queryId_inputRow (inputs : List QueryVectorSetInput) :
    (inputs.zipIdx.map (inputRow prims)).map (·.queryId) = inputs.map (·.queryId) := by
  rw [List.map_map]
  show inputs.zipIdx.map (QueryVectorSetInput.queryId ∘ Prod.fst) = _
  rw [← List.map_map, List.zipIdx_map_fst]

theorem inputRows_accepted (hlength : inputs.length ≤ maxQueryPlanRows)
    (hvalid : ∀ input ∈ inputs, ValidQueryId input.queryId)
    (hids : (inputs.map (·.queryId)).Nodup) :
    ∃ ids, (inputs.zipIdx.map (inputRow prims)).zipIdx.foldlM validateQueryVectorRow [] =
      .ok ids := by
  have hrows := @map_queryId_inputRow prims inputs
  have htotal := @foldlM_zipIdx_total _ _ _ validateQueryVectorRow
    (fun pre ids => ids = (pre.map (·.queryId)).reverse) (inputs.zipIdx.map (inputRow prims)) [] rfl
    ?_
  · obtain ⟨ids, hids, -⟩ := htotal
    exact ⟨ids, hids⟩
  · rintro pre row post ids hsplit rfl
    -- the row at this position is that of the input at this position
    have hget : (inputs.zipIdx.map (inputRow prims))[pre.length]? = some row := by
      rw [hsplit, List.getElem?_append_right le_rfl, Nat.sub_self, List.getElem?_cons_zero]
    rw [List.getElem?_map, List.getElem?_zipIdx, Option.map_map, Option.map_eq_some_iff] at hget
    obtain ⟨input, hinput, rfl⟩ := hget
    have hlt : pre.length < inputs.length := (List.getElem?_eq_some_iff.mp hinput).1
    have hordinal : (0 + pre.length) % 2 ^ 32 = pre.length := by
      rw [Nat.zero_add]
      exact Nat.mod_eq_of_lt (hlt.trans_le (hlength.trans (by decide)))
    have hnew : input.queryId ∉ (pre.map (·.queryId)).reverse := by
      rw [← hrows, hsplit, List.map_append, List.map_cons, List.nodup_append] at hids
      intro hmem
      exact hids.2.2 _ (List.mem_reverse.mp hmem) _ List.mem_cons_self rfl
    refine ⟨input.queryId :: (pre.map (·.queryId)).reverse, ?_, ?_⟩
    · simp only [validateQueryVectorRow, bind_eq_ok, exists_unit, throwIf_eq_ok, orThrow_eq_ok,
        insertNew_eq_some, not_or, not_not]
      exact ⟨⟨hordinal, hvalid input (List.mem_of_getElem? hinput)⟩, hnew, rfl⟩
    · rw [List.map_append, List.reverse_append]
      rfl

theorem parseQueryPlan_ne_nil (h : parseQueryPlan prims queryPlanBytes = .ok parsed) :
    queryPlanBytes ≠ [] := by
  simp only [parseQueryPlan, bind_eq_ok, exists_unit, throwIf_eq_ok, not_not] at h
  rintro rfl
  cases h.1

theorem WriteAccepted.bytes_val (h : WriteAccepted prims unitNorm queryPlanBytes parsed
    execution dimensions normalization inputs) :
    queryPlanBytes.length % 2 ^ 64 = queryPlanBytes.length ∧
      (inputVectors inputs).length % 2 ^ 64 = (inputVectors inputs).length ∧
      inputs.length % 2 ^ 32 = inputs.length :=
  ⟨Nat.mod_eq_of_lt (h.plan_le.trans_lt (by decide)),
    Nat.mod_eq_of_lt (h.vectors_le.trans_lt (by decide)),
    Nat.mod_eq_of_lt (h.inputs_le.trans_lt (by decide))⟩

/-- The manifest of accepted inputs is valid. -/
theorem WriteAccepted.described_valid (h : WriteAccepted prims unitNorm queryPlanBytes parsed
    execution dimensions normalization inputs) :
    (describedManifest prims queryPlanBytes parsed execution dimensions normalization
      inputs).validate prims = .ok () := by
  obtain ⟨hplan, hvectors, hrows⟩ := h.bytes_val
  obtain ⟨rows, -, haccepted⟩ := parseQueryPlan_accepted h.parsed_ok
  have hbytes := h.length_inputVectors
  have hvectorsLe := h.vectors_le
  have hartifact : QueryVectorArtifact.validate ⟨planPath, ⟨queryPlanBytes.length % 2 ^ 64,
      Nat.mod_lt _ (by decide)⟩, digestBytes prims queryPlanBytes⟩ queryVectorSetPlan = .ok () := by
    rw [QueryVectorArtifact.validate, throwIf_eq_ok, not_or, not_or]
    refine ⟨not_not.mpr rfl, fun hzero => ?_, ?_⟩
    · rw [Fin.ext_iff] at hzero
      change queryPlanBytes.length % 2 ^ 64 = 0 at hzero
      rw [hplan, List.length_eq_zero_iff] at hzero
      exact parseQueryPlan_ne_nil h.parsed_ok hzero
    · show ¬ maxQueryPlanBytes < queryPlanBytes.length % 2 ^ 64
      rw [hplan]
      exact not_lt.mpr h.plan_le
  have hlength : (inputs.zipIdx.map (inputRow prims)).length = inputs.length := by
    rw [List.length_map, List.length_zipIdx]
  have hproduct : inputs.length * (dimensions : ℕ) * 4 < 2 ^ 64 :=
    hbytes ▸ h.vectors_le.trans_lt (by decide)
  have hids : (inputs.map (·.queryId)).Nodup := h.queryIds ▸ haccepted.nodup
  have hvalid : ∀ input ∈ inputs, ValidQueryId input.queryId := by
    intro input hinput
    obtain ⟨planned, hplanned, hsupplies⟩ := exists_left_of_mem h.supplied hinput
    exact hsupplies.queryId ▸ haccepted.valid planned hplanned
  obtain ⟨ids, hscan⟩ := @inputRows_accepted prims inputs h.inputs_le hvalid hids
  have hdigest : ∀ manifest : QueryVectorSetManifest, componentDigest prims (toJson manifest) =
      .ok (canonicalDigest prims (.mkObject manifest.body)) := fun manifest =>
    componentDigest_sealedObject prims (by
      simp only [QueryVectorSetManifest.body, List.map_cons, List.map_nil]
      decide)
  simp only [QueryVectorSetManifest.validate, bind_eq_ok, exists_unit, throwIf_eq_ok,
    orThrow_eq_ok, checkedMul_eq_some, not_or, not_not, hdigest]
  refine ⟨hartifact, h.execution_ok, ⟨rfl, rfl, haccepted.request_pos, haccepted.semantic_pos,
    not_lt.mpr haccepted.semantic_le, ?_, ?_, rfl, rfl, h.normalization_mem, h.dimensions_ne,
    ?_, ?_⟩, _, ⟨?_, rfl⟩, _, ⟨?_, rfl⟩, ?_, ids, hscan, _, rfl, rfl, rfl⟩
  · intro hnil
    rw [← List.length_eq_zero_iff] at hnil
    exact h.inputs_ne (List.length_eq_zero_iff.mp (hlength ▸ hnil))
  · show inputs.length % 2 ^ 32 = (inputs.zipIdx.map (inputRow prims)).length
    rw [hrows, hlength]
  · intro hzero
    rw [Fin.ext_iff] at hzero
    change (inputVectors inputs).length % 2 ^ 64 = 0 at hzero
    rw [hvectors, List.length_eq_zero_iff] at hzero
    exact h.vectors_ne hzero
  · show ¬ maxVectorBytes < (inputVectors inputs).length % 2 ^ 64
    rw [hvectors]
    exact not_lt.mpr h.vectors_le
  · show inputs.length % 2 ^ 32 * (dimensions : ℕ) < 2 ^ 64
    rw [hrows]
    omega
  · show inputs.length % 2 ^ 32 * (dimensions : ℕ) * 4 < 2 ^ 64
    rwa [hrows]
  · show (inputVectors inputs).length % 2 ^ 64 = inputs.length % 2 ^ 32 * (dimensions : ℕ) * 4
    rw [hvectors, hrows, hbytes]

/-- **Writing.** What the writer accepts, and what it writes. -/
theorem writeQueryVectorSet_eq_ok {manifest : QueryVectorSetManifest} {files : QueryVectorFiles} :
    writeQueryVectorSet prims unitNorm queryPlanBytes execution dimensions normalization inputs =
        .ok (manifest, files) ↔
      ∃ parsed, WriteAccepted prims unitNorm queryPlanBytes parsed execution dimensions
        normalization inputs ∧
      manifest = describedManifest prims queryPlanBytes parsed execution dimensions normalization
        inputs ∧
      files = ⟨prims.canonicalJsonBytes (toJson manifest), queryPlanBytes, inputVectors inputs⟩ := by
  have hzero : Digest.new (String.ofList (List.replicate 64 '0')) =
      .ok ⟨String.ofList (List.replicate 64 '0'), by decide⟩ := Digest.new_val ⟨_, by decide⟩
  have hplanPath : SafeRelativePath.new queryVectorSetPlan = .ok planPath := by
    rw [SafeRelativePath.new]
    exact dif_pos planPath.property
  have hvectorsPath : SafeRelativePath.new queryVectorSetVectors = .ok vectorsPath := by
    rw [SafeRelativePath.new]
    exact dif_pos vectorsPath.property
  have hwidth : ∀ {w n : ℕ} (hn : n < 2 ^ w) {value : Fin (2 ^ w)}, (value : ℕ) = n →
      value = ⟨n % 2 ^ w, Nat.mod_lt _ (Nat.two_pow_pos w)⟩ := by
    intro w n hn value hvalue
    exact Fin.ext (hvalue.trans (Nat.mod_eq_of_lt hn).symm)
  simp only [writeQueryVectorSet, bind_eq_ok, exists_unit, throwIf_eq_ok, orThrow_eq_ok,
    toWidth_eq_some, hzero, hplanPath, hvectorsPath, seal_eq_ok, pure_eq_ok, not_or, not_not,
    not_lt, Except.ok.injEq, exists_eq_left', Prod.mk.injEq]
  constructor
  · rintro ⟨hexecution, ⟨hne, hle, hdimensions, hnormalization⟩, hplan, parsed, hparsed, hlength,
      rows, hrows, ⟨hvectors, hvectorsLe⟩, vectorLength, hvectorLength, planLength, hplanLength,
      rowCount, hrowCount, written, ⟨rfl, -⟩, rfl, rfl⟩
    obtain ⟨hsupplied, rfl⟩ := (mapM_writeQueryVector hlength (by
      rw [Nat.zero_add]
      exact hle.trans (by decide))).mp hrows
    have haccepted : WriteAccepted prims unitNorm queryPlanBytes parsed execution dimensions
        normalization inputs := ⟨hexecution, hne, hle, hdimensions, hnormalization, hplan, hparsed,
          hsupplied, hvectors, hvectorsLe⟩
    obtain rfl := hwidth (hvectorsLe.trans_lt (by decide)) hvectorLength
    obtain rfl := hwidth (hplan.trans_lt (by decide)) hplanLength
    rw [List.length_map, List.length_zipIdx] at hrowCount
    obtain rfl := hwidth (hle.trans_lt (by decide)) hrowCount
    exact ⟨parsed, haccepted, rfl, rfl⟩
  · rintro ⟨parsed, haccepted, rfl, rfl⟩
    obtain ⟨hplan, hvectors, hrows⟩ := haccepted.bytes_val
    refine ⟨haccepted.execution_ok, ⟨haccepted.inputs_ne, haccepted.inputs_le,
      haccepted.dimensions_ne, haccepted.normalization_mem⟩, haccepted.plan_le, parsed,
      haccepted.parsed_ok, haccepted.supplied.length_eq, _,
      (mapM_writeQueryVector haccepted.supplied.length_eq (by
        rw [Nat.zero_add]
        exact haccepted.inputs_le.trans (by decide))).mpr ⟨haccepted.supplied, rfl⟩,
      ⟨haccepted.vectors_ne, haccepted.vectors_le⟩, _, hvectors, _, hplan, _, ?_, _,
      ⟨rfl, haccepted.described_valid⟩, rfl, rfl⟩
    rw [List.length_map, List.length_zipIdx]
    exact hrows

/-! ### What has been written opens again -/

/-- The set that opens from accepted inputs. -/
def writtenSet (prims : Primitives) (queryPlanBytes : List UInt8) (parsed : ParsedQueryPlan)
    (execution : QueryVectorExecutionBinding) (dimensions : U32) (normalization : String)
    (inputs : List QueryVectorSetInput) : SealedQueryVectorSet where
  manifest := describedManifest prims queryPlanBytes parsed execution dimensions normalization
    inputs
  vectors := (inputs.map (·.vector)).flatten
  byQueryId := SortedMap.ofList ((inputs.zipIdx.map (inputRow prims)).zipIdx.map fun entry =>
    (entry.1.queryId, entry.2))
  requestSurfaces := parsed.surfaces

theorem WriteAccepted.dimensions_pos (h : WriteAccepted prims unitNorm queryPlanBytes parsed
    execution dimensions normalization inputs) : 0 < (dimensions : ℕ) :=
  Nat.pos_of_ne_zero fun hzero => h.dimensions_ne (Fin.ext hzero)

theorem getElem?_inputRows (inputs : List QueryVectorSetInput) (i : ℕ) :
    (inputs.zipIdx.map (inputRow prims))[i]? =
      inputs[i]?.map fun input => inputRow prims (input, i) := by
  rw [List.getElem?_map, List.getElem?_zipIdx, Option.map_map]
  refine congrArg (fun f => inputs[i]?.map f) (funext fun input => ?_)
  rw [Function.comp, Nat.zero_add]

variable {readManifest : List UInt8 → Result QueryVectorSetManifest}

/-- The planned queries and the rows agree. -/
theorem WriteAccepted.rows_agree (h : WriteAccepted prims unitNorm queryPlanBytes parsed
    execution dimensions normalization inputs) :
    ∀ entry ∈ parsed.uniqueSemanticQueries.zip (inputs.zipIdx.map (inputRow prims)),
      entry.1.queryId = entry.2.queryId ∧
        digestBytes prims (Text.utf8 entry.1.query) = entry.2.rawQuerySha256 := by
  intro entry hentry
  obtain ⟨i, hi⟩ := List.mem_iff_getElem?.mp hentry
  rw [List.getElem?_zip_eq_some, getElem?_inputRows, Option.map_eq_some_iff] at hi
  obtain ⟨hplanned, input, hinput, hrow⟩ := hi
  have hsupplies := List.forall₂_zip h.supplied
    (List.mem_iff_getElem?.mpr ⟨i, List.getElem?_zip_eq_some.mpr ⟨hplanned, hinput⟩⟩)
  rw [← hrow]
  exact ⟨hsupplies.queryId, congrArg (fun query => digestBytes prims (Text.utf8 query))
    hsupplies.query⟩

theorem WriteAccepted.vectors_agree (h : WriteAccepted prims unitNorm queryPlanBytes parsed
    execution dimensions normalization inputs) :
    ∀ entry ∈ (inputs.map (·.vector)).zipIdx, checkVectorRow prims unitNorm
      (describedManifest prims queryPlanBytes parsed execution dimensions normalization inputs)
      entry = .ok () := by
  rintro ⟨vector, i⟩ hentry
  rw [List.mem_zipIdx_iff_getElem?, List.getElem?_map, Option.map_eq_some_iff] at hentry
  obtain ⟨input, hinput, rfl⟩ := hentry
  obtain ⟨planned, -, hsupplies⟩ := exists_left_of_mem h.supplied (List.mem_of_getElem? hinput)
  simp only [checkVectorRow, bind_eq_ok, exists_unit, orThrow_eq_ok, throwIf_eq_ok, not_not]
  refine ⟨hsupplies.valid, inputRow prims (input, i), ?_, rfl⟩
  show (inputs.zipIdx.map (inputRow prims))[i]? = _
  rw [getElem?_inputRows, hinput]
  rfl

theorem WriteAccepted.open_eq_ok (h : WriteAccepted prims unitNorm queryPlanBytes parsed
    execution dimensions normalization inputs) {bytes : List UInt8} (hbytes : bytes ≠ [])
    (hread : readManifest bytes = .ok (describedManifest prims queryPlanBytes parsed execution
      dimensions normalization inputs)) (hfits : bytes.length ≤ maxManifestBytes)
    {expected : Option (List UInt8)} (hexpected : ∀ plan ∈ expected, plan = queryPlanBytes) :
    SealedQueryVectorSet.open prims unitNorm readManifest
        ⟨bytes, queryPlanBytes, inputVectors inputs⟩ execution.embeddingProfile
        execution.execution.returnedModel dimensions normalization expected =
      .ok (writtenSet prims queryPlanBytes parsed execution dimensions normalization inputs) := by
  obtain ⟨hplan, hvectors, -⟩ := h.bytes_val
  have hdecode : decodeVectors (inputVectors inputs) = .ok (inputs.map (·.vector)).flatten := by
    rw [inputVectors_eq, decodeVectors_vectorBytes]
  have hchunks : chunksExact (dimensions : ℕ) (inputs.map (·.vector)).flatten =
      inputs.map (·.vector) := chunksExact_flatten h.dimensions_pos h.length_vector
  have hlength : (inputs.zipIdx.map (inputRow prims)).length = inputs.length := by
    rw [List.length_map, List.length_zipIdx]
  simp only [SealedQueryVectorSet.open, bind_eq_ok, exists_unit, throwIf_eq_ok, hread, not_or,
    not_not, Except.ok.injEq, exists_eq_left', h.described_valid, h.parsed_ok, forM_eq_ok,
    pure_eq_ok, not_lt, true_and]
  refine ⟨⟨hbytes, hfits⟩, ⟨rfl, rfl, rfl, rfl⟩, ⟨hplan.symm, rfl⟩, ?_, ⟨rfl, rfl, ?_⟩,
    h.rows_agree, ⟨hvectors.symm, rfl⟩, _, hdecode, ?_, rfl⟩
  · rintro ⟨plan, hplanned, hne⟩
    obtain rfl := hexpected plan hplanned
    rcases hne with hne | hne
    · exact hne hplan.symm
    · exact hne rfl
  · rw [h.supplied.length_eq]
    exact hlength.symm
  · show ∀ entry ∈ (chunksExact (dimensions : ℕ) (inputs.map (·.vector)).flatten).zipIdx, _
    rw [hchunks]
    exact h.vectors_agree

/-! ### What has been written is served -/

theorem WriteAccepted.vectorAt_eq_ok (h : WriteAccepted prims unitNorm queryPlanBytes parsed
    execution dimensions normalization inputs) {i : ℕ} {input : QueryVectorSetInput}
    (hinput : inputs[i]? = some input) :
    (writtenSet prims queryPlanBytes parsed execution dimensions normalization inputs).vectorAt i =
      .ok input.vector := by
  have hlt : i < inputs.length := (List.getElem?_eq_some_iff.mp hinput).1
  have hlength := h.length_inputVectors
  have hle := h.vectors_le
  -- the offsets lie within the packed vectors
  have hend : (i + 1) * (dimensions : ℕ) ≤ inputs.length * dimensions :=
    Nat.mul_le_mul_right _ hlt
  have hsmall : inputs.length * (dimensions : ℕ) < 2 ^ 64 := by
    have hbound : maxVectorBytes < 2 ^ 64 := by decide
    omega
  have hstop : i * (dimensions : ℕ) + dimensions = (i + 1) * dimensions := by
    rw [Nat.add_mul, Nat.one_mul]
  simp only [SealedQueryVectorSet.vectorAt, bind_eq_ok, orThrow_eq_ok, checkedMul_eq_some,
    checkedAdd_eq_some, rowRange_eq_some]
  refine ⟨i * dimensions, ⟨?_, rfl⟩, (i + 1) * dimensions, ⟨?_, hstop⟩, ⟨?_, ?_⟩, ?_⟩
  · exact lt_of_le_of_lt (Nat.mul_le_mul_right _ (Nat.le_succ i)) (hend.trans_lt hsmall)
  · show i * (dimensions : ℕ) + dimensions < 2 ^ 64
    exact hstop ▸ hend.trans_lt hsmall
  · exact Nat.mul_le_mul_right _ (Nat.le_succ i)
  · show (i + 1) * (dimensions : ℕ) ≤ (inputs.map (·.vector)).flatten.length
    rw [length_flatten_of_length h.length_vector, List.length_map]
    exact hend
  · refine segment_flatten h.length_vector ?_
    rw [List.getElem?_map, hinput]
    rfl

theorem WriteAccepted.byQueryId_eq_some (h : WriteAccepted prims unitNorm queryPlanBytes parsed
    execution dimensions normalization inputs) {i : ℕ} {input : QueryVectorSetInput}
    (hinput : inputs[i]? = some input) :
    (writtenSet prims queryPlanBytes parsed execution dimensions normalization
      inputs).byQueryId.get? input.queryId = some i := by
  obtain ⟨rows, -, haccepted⟩ := parseQueryPlan_accepted h.parsed_ok
  have hkeys : (((inputs.zipIdx.map (inputRow prims)).zipIdx.map fun entry =>
      (entry.1.queryId, entry.2)).map Prod.fst).Nodup := by
    rw [List.map_map]
    show ((inputs.zipIdx.map (inputRow prims)).zipIdx.map
      (QueryVectorRow.queryId ∘ Prod.fst)).Nodup
    rw [← List.map_map, List.zipIdx_map_fst, map_queryId_inputRow, h.queryIds]
    exact haccepted.nodup
  rw [writtenSet, SortedMap.get?_ofList hkeys]
  refine List.mem_map.mpr ⟨(inputRow prims (input, i), i), ?_, rfl⟩
  rw [List.mem_zipIdx_iff_getElem?, getElem?_inputRows, hinput]
  rfl

/-- Every semantic row of the plan is served the vector of its input. -/
theorem WriteAccepted.vectorForRequest_eq_ok (h : WriteAccepted prims unitNorm queryPlanBytes
    parsed execution dimensions normalization inputs) {rows : List PlanRow}
    (haccepted : PlanAccepted rows parsed) {row : PlanRow} (hrow : row ∈ rows)
    (hsemantic : row.IsSemantic) {input : QueryVectorSetInput} (hinput : input ∈ inputs)
    (hid : input.queryId = row.queryId) :
    (writtenSet prims queryPlanBytes parsed execution dimensions normalization
        inputs).vectorForRequest prims row.queryId row.query input.composedQuery row.mode row.topN
        row.relations = .ok input.vector := by
  obtain ⟨i, hi⟩ := List.mem_iff_getElem?.mp hinput
  -- the text of the row is the raw query of the input
  have hquery : row.query = input.rawQuery := by
    obtain ⟨planned, hplanned, hplannedId, hplannedQuery⟩ := haccepted.planned row hrow hsemantic
    obtain ⟨other, hother, hsupplies⟩ := exists_right_of_mem h.supplied hplanned
    have hids : (inputs.map (·.queryId)).Nodup := h.queryIds ▸ haccepted.nodup
    have heq : other = input := List.inj_on_of_nodup_map hids hother hinput
      (hsupplies.queryId.symm.trans (hplannedId.trans hid.symm))
    rw [← hplannedQuery, hsupplies.query, heq]
  have hget : (writtenSet prims queryPlanBytes parsed execution dimensions normalization
      inputs).manifest.queries[i]? = some (inputRow prims (input, i)) := by
    show (inputs.zipIdx.map (inputRow prims))[i]? = _
    rw [getElem?_inputRows, hi]
    rfl
  simp only [SealedQueryVectorSet.vectorForRequest, SealedQueryVectorSet.vectorFor, bind_eq_ok,
    exists_unit, throwIf_eq_ok, orThrow_eq_ok, not_or, not_not]
  refine ⟨haccepted.surfaces row hrow, i, ?_, _, hget, ⟨?_, rfl⟩, h.vectorAt_eq_ok hi⟩
  · rw [← hid]
    exact h.byQueryId_eq_some hi
  · rw [hquery]
    rfl

end Written

/-! ### Serving a request without an id -/

section Serving

variable {prims : Primitives} {sealedSet : SealedQueryVectorSet}
  {rawQuery composedQuery mode : String} {topN : U64} {relations : List String}

/-- An opened set finds the rows of its manifest by their ids. -/
structure SealedQueryVectorSet.Indexed (sealedSet : SealedQueryVectorSet) : Prop where
  nodup : (sealedSet.manifest.queries.map (·.queryId)).Nodup
  byQueryId : sealedSet.byQueryId = SortedMap.ofList (sealedSet.manifest.queries.zipIdx.map
    fun entry => (entry.1.queryId, entry.2))

theorem validate_nodup {manifest : QueryVectorSetManifest}
    (h : manifest.validate prims = .ok ()) : (manifest.queries.map (·.queryId)).Nodup := by
  simp only [QueryVectorSetManifest.validate, bind_eq_ok, exists_unit] at h
  obtain ⟨-, -, -, _, -, _, -, -, ids, hscan, -⟩ := h
  have hinvariant := @foldlM_zipIdx_invariant _ _ _ validateQueryVectorRow
    (fun pre ids => ids = (pre.map (·.queryId)).reverse ∧ (pre.map (·.queryId)).Nodup)
    manifest.queries [] ids ⟨rfl, List.nodup_nil⟩ ?_ hscan
  · exact hinvariant.2
  · rintro pre row post ids after - ⟨rfl, hnodup⟩ hstep
    simp only [validateQueryVectorRow, bind_eq_ok, exists_unit, throwIf_eq_ok, orThrow_eq_ok,
      insertNew_eq_some] at hstep
    obtain ⟨-, hnew, rfl⟩ := hstep
    rw [List.map_append, List.map_singleton, List.nodup_append]
    refine ⟨by rw [List.reverse_append]; rfl, hnodup, List.nodup_singleton _, ?_⟩
    rintro queryId hmem other hother rfl
    rw [List.mem_singleton] at hother
    exact hnew (List.mem_reverse.mpr (hother ▸ hmem))

theorem open_indexed {unitNorm : List F32 → Bool}
    {readManifest : List UInt8 → Result QueryVectorSetManifest} {files : QueryVectorFiles}
    {profile : ComponentRef} {returnedModel : String} {dimensions : U32} {normalization : String}
    {expected : Option (List UInt8)}
    (h : SealedQueryVectorSet.open prims unitNorm readManifest files profile returnedModel
      dimensions normalization expected = .ok sealedSet) : sealedSet.Indexed := by
  simp only [SealedQueryVectorSet.open, bind_eq_ok, exists_unit, pure_eq_ok] at h
  obtain ⟨-, manifest, -, hvalid, -, -, -, plan, -, -, -, -, vectors, -, -, rfl⟩ := h
  exact ⟨validate_nodup hvalid, rfl⟩

theorem SealedQueryVectorSet.Indexed.byQueryId_eq_some (h : sealedSet.Indexed) {queryId : String}
    {i : ℕ} : sealedSet.byQueryId.get? queryId = some i ↔
      ∃ row, sealedSet.manifest.queries[i]? = some row ∧ row.queryId = queryId := by
  have hkeys : ((sealedSet.manifest.queries.zipIdx.map fun entry =>
      (entry.1.queryId, entry.2)).map Prod.fst).Nodup := by
    rw [List.map_map]
    show (sealedSet.manifest.queries.zipIdx.map (QueryVectorRow.queryId ∘ Prod.fst)).Nodup
    rw [← List.map_map, List.zipIdx_map_fst]
    exact h.nodup
  rw [h.byQueryId, SortedMap.get?_ofList hkeys, List.mem_map]
  constructor
  · rintro ⟨⟨row, j⟩, hmem, heq⟩
    obtain ⟨rfl, rfl⟩ := Prod.mk.inj heq
    exact ⟨row, List.mem_zipIdx_iff_getElem?.mp hmem, rfl⟩
  · rintro ⟨row, hrow, rfl⟩
    exact ⟨(row, i), List.mem_zipIdx_iff_getElem?.mpr hrow, rfl⟩

/-- A request by id is served by the row of the id, when the row answers it. -/
theorem SealedQueryVectorSet.Indexed.vectorForRequest_eq_ok (h : sealedSet.Indexed)
    {queryId : String} {vector : List F32} :
    sealedSet.vectorForRequest prims queryId rawQuery composedQuery mode topN relations =
        .ok vector ↔
      ∃ i row, sealedSet.manifest.queries[i]? = some row ∧ row.queryId = queryId ∧
        sealedSet.Answers prims rawQuery composedQuery mode topN relations row ∧
        sealedSet.vectorAt i = .ok vector := by
  simp only [SealedQueryVectorSet.vectorForRequest, SealedQueryVectorSet.vectorFor, bind_eq_ok,
    exists_unit, throwIf_eq_ok, orThrow_eq_ok, not_or, not_not, h.byQueryId_eq_some]
  constructor
  · rintro ⟨hsurface, i, ⟨row, hrow, rfl⟩, other, hother, ⟨hraw, hcomposed⟩, hvector⟩
    obtain rfl := Option.some.inj (hrow.symm.trans hother)
    exact ⟨i, row, hrow, rfl, ⟨hraw, hcomposed, hsurface⟩, hvector⟩
  · rintro ⟨i, row, hrow, rfl, ⟨hraw, hcomposed, hsurface⟩, hvector⟩
    exact ⟨hsurface, i, ⟨row, hrow, rfl⟩, row, hrow, ⟨hraw, hcomposed⟩, hvector⟩

/-- A request without an id is served by the only row that answers it. -/
theorem SealedQueryVectorSet.vectorForUniqueRequest_ok {vector : List F32}
    (h : sealedSet.vectorForUniqueRequest prims rawQuery composedQuery mode topN relations =
      .ok vector) :
    ∃ i row, sealedSet.manifest.queries[i]? = some row ∧
      sealedSet.Answers prims rawQuery composedQuery mode topN relations row ∧
      sealedSet.vectorAt i = .ok vector ∧
      ∀ j other, sealedSet.manifest.queries[j]? = some other →
        sealedSet.Answers prims rawQuery composedQuery mode topN relations other → j = i := by
  simp only [SealedQueryVectorSet.vectorForUniqueRequest, bind_eq_ok, orThrow_eq_ok] at h
  obtain ⟨found, hrun, i, rfl, hvector⟩ := h
  -- of the rows so far, the one found answers and no other does
  have hinvariant := foldlM_zipIdx_invariant (P := fun pre found =>
      (∀ i, found = some i → ∃ row, pre[i]? = some row ∧
        sealedSet.Answers prims rawQuery composedQuery mode topN relations row) ∧
      ∀ j other, pre[j]? = some other →
        sealedSet.Answers prims rawQuery composedQuery mode topN relations other →
        found = some j) ⟨by simp, by simp⟩ ?_ hrun
  · obtain ⟨row, hrow, hanswers⟩ := hinvariant.1 i rfl
    exact ⟨i, row, hrow, hanswers, hvector, fun j other hother hanswers =>
      (Option.some.inj (hinvariant.2 j other hother hanswers)).symm⟩
  · rintro pre row post found after - ⟨hfound, honly⟩ hstep
    have hcases : ∀ j other, (pre ++ [row])[j]? = some other →
        pre[j]? = some other ∨ j = pre.length ∧ other = row := by
      intro j other hother
      rcases lt_or_ge j pre.length with hlt | hge
      · exact .inl (List.getElem?_append_left hlt ▸ hother)
      · rw [List.getElem?_append_right hge, List.getElem?_singleton] at hother
        split at hother
        · exact .inr ⟨by omega, (Option.some.inj hother).symm⟩
        · cases hother
    have hkeep : ∀ i other, pre[i]? = some other → (pre ++ [row])[i]? = some other :=
      fun i other hother => (List.getElem?_append_left
        (List.getElem?_eq_some_iff.mp hother).1).trans hother
    by_cases hanswers : sealedSet.Answers prims rawQuery composedQuery mode topN relations row
    · simp only [if_pos hanswers, bind_eq_ok, exists_unit, throwIf_eq_ok, not_not,
        pure_eq_ok] at hstep
      obtain ⟨rfl, rfl⟩ := hstep
      refine ⟨fun i hi => ?_, fun j other hother hother' => ?_⟩
      · obtain rfl := Option.some.inj hi
        exact ⟨row, by rw [List.getElem?_append_right le_rfl, Nat.sub_self]; rfl, hanswers⟩
      · rcases hcases j other hother with hold | ⟨rfl, -⟩
        · cases honly j other hold hother'
        · rfl
    · simp only [if_neg hanswers, pure_eq_ok] at hstep
      subst hstep
      refine ⟨fun i hi => ?_, fun j other hother hother' => ?_⟩
      · obtain ⟨other, hother, hother'⟩ := hfound i hi
        exact ⟨other, hkeep i other hother, hother'⟩
      · rcases hcases j other hother with hold | ⟨-, rfl⟩
        · exact honly j other hold hother'
        · exact absurd hother' hanswers

/-- A vector served without an id is that of exactly one id. -/
def SealedQueryVectorSet.ServesUniquely (prims : Primitives) (sealedSet : SealedQueryVectorSet) :
    Prop :=
  ∀ rawQuery composedQuery mode topN relations vector,
    sealedSet.vectorForUniqueRequest prims rawQuery composedQuery mode topN relations =
      .ok vector →
    ∃ queryId ∈ sealedSet.manifest.queries.map (·.queryId),
      sealedSet.vectorForRequest prims queryId rawQuery composedQuery mode topN relations =
        .ok vector ∧
      ∀ other, (∃ served, sealedSet.vectorForRequest prims other rawQuery composedQuery mode topN
        relations = .ok served) → other = queryId

theorem SealedQueryVectorSet.Indexed.servesUniquely (h : sealedSet.Indexed) :
    sealedSet.ServesUniquely prims := by
  intro rawQuery composedQuery mode topN relations vector hserved
  obtain ⟨i, row, hrow, hanswers, hvector, honly⟩ :=
    SealedQueryVectorSet.vectorForUniqueRequest_ok hserved
  refine ⟨row.queryId, List.mem_map_of_mem (List.mem_of_getElem? hrow),
    h.vectorForRequest_eq_ok.mpr ⟨i, row, hrow, rfl, hanswers, hvector⟩, ?_⟩
  rintro other ⟨served, hother⟩
  obtain ⟨j, row', hrow', rfl, hanswers', -⟩ := h.vectorForRequest_eq_ok.mp hother
  obtain rfl := honly j row' hrow' hanswers'
  rw [Option.some.inj (hrow'.symm.trans hrow)]

end Serving

/-! ### The round trip -/

section RoundTrip

variable (prims : Primitives) (unitNorm : List F32 → Bool)
  (readManifest : List UInt8 → Result QueryVectorSetManifest) (queryPlanBytes : List UInt8)
  (execution : QueryVectorExecutionBinding) (dimensions : U32) (normalization : String)
  (inputs : List QueryVectorSetInput)

/-- The files open under the profile and model of the execution, with the plan or
without it; the set serves every semantic row of the plan the vector supplied for its
id, and serves a request without an id only where one id is served. -/
def RoundTrips (files : QueryVectorFiles) : Prop :=
  ∀ expected : Option (List UInt8), (∀ plan ∈ expected, plan = queryPlanBytes) →
    ∃ sealedSet, SealedQueryVectorSet.open prims unitNorm readManifest files
      execution.embeddingProfile execution.execution.returnedModel dimensions normalization
      expected = .ok sealedSet ∧
    (∃ rows, planRows prims queryPlanBytes = .ok rows ∧ ∀ row ∈ rows, row.IsSemantic →
      (∃ input ∈ inputs, input.queryId = row.queryId) ∧
      ∀ input ∈ inputs, input.queryId = row.queryId →
        sealedSet.vectorForRequest prims row.queryId row.query input.composedQuery row.mode
          row.topN row.relations = .ok input.vector) ∧
    sealedSet.ServesUniquely prims

/-- The manifest that the inputs describe is not larger than a manifest may be. -/
def ManifestFits : Prop :=
  ∀ parsed, parseQueryPlan prims queryPlanBytes = .ok parsed →
    (prims.canonicalJsonBytes (toJson (describedManifest prims queryPlanBytes parsed execution
      dimensions normalization inputs))).length ≤ maxManifestBytes

end RoundTrip

/-! ### A manifest that is too large

The text of a value is at least as long as that of any member, so a long text in the
execution binding makes a long manifest. -/

mutual

/-- The compact text of a value, for values without floats and texts without escapes. -/
def jsonText : Json → List Char
  | .null => ['n', 'u', 'l', 'l']
  | .bool b => if b then ['t', 'r', 'u', 'e'] else ['f', 'a', 'l', 's', 'e']
  | .number (.posInt n) => Nat.toDigits 10 n
  | .number (.negInt n) => '-' :: Nat.toDigits 10 (n + 1)
  | .number (.float bits) => Nat.toDigits 10 bits
  | .string s => '"' :: s.toList ++ ['"']
  | .array elements => '[' :: [','].intercalate (elementTexts elements) ++ [']']
  | .object members => '\x7b' :: [','].intercalate (memberTexts members) ++ ['\x7d']

def elementTexts : List Json → List (List Char)
  | [] => []
  | element :: elements => jsonText element :: elementTexts elements

def memberTexts : List (String × Json) → List (List Char)
  | [] => []
  | member :: members => memberText member :: memberTexts members

def memberText : String × Json → List Char
  | (key, value) => '"' :: key.toList ++ '"' :: ':' :: jsonText value

end

theorem memberTexts_eq_map (members : List (String × Json)) :
    memberTexts members = members.map memberText := by
  induction members with
  | nil => rfl
  | cons member members ih => rw [memberTexts, List.map_cons, ih]

theorem length_le_length_intercalate {separator piece : List Char} {pieces : List (List Char)}
    (h : piece ∈ pieces) : piece.length ≤ (separator.intercalate pieces).length := by
  induction pieces with
  | nil => cases h
  | cons first pieces ih =>
    cases pieces with
    | nil =>
      obtain rfl := List.mem_singleton.mp h
      rw [List.intercalate_singleton]
    | cons second pieces =>
      rw [List.intercalate_cons_cons, List.length_append, List.length_append]
      rcases List.mem_cons.mp h with rfl | h
      · omega
      · have hrest := ih h
        omega

/-- The text of a member is part of the text of its object. -/
theorem length_jsonText_le {fields : List (String × Json)} (hnodup : (fields.map Prod.fst).Nodup)
    {key : String} {value : Json} (h : (key, value) ∈ fields) :
    (jsonText value).length ≤ (jsonText (.mkObject fields)).length := by
  have hmem : (key, value) ∈ (SortedMap.ofList fields).entries :=
    (SortedMap.entries_ofList_perm hnodup).mem_iff.mpr h
  have hpiece := @length_le_length_intercalate [','] _ _ (List.mem_map_of_mem (f := memberText) hmem)
  rw [← memberTexts_eq_map] at hpiece
  rw [memberText] at hpiece
  rw [Json.mkObject, jsonText]
  simp only [List.length_cons, List.length_append] at hpiece ⊢
  omega

/-- The row of one dense request. -/
def samplePlanValue : Json := .object
  [("mode", .string "dense"), ("query", .string "text"), ("query_id", .string "q"),
    ("relations", .array []), ("top_n", .number (.posInt 5))]

/-- The text of the row. -/
def sampleLine : String :=
  "\x7b\"mode\":\"dense\",\"query\":\"text\",\"query_id\":\"q\",\"relations\":[],\"top_n\":5\x7d"

example : sampleLine = String.ofList (jsonText samplePlanValue) := by decide +kernel

/-- Stand-ins that write a value as its compact text and read the one row back. -/
def textPrimitives : Primitives where
  sha256 bytes := hexDigest (bytes.map UInt8.toNat).sum
  canonicalJsonBytes value := Text.utf8 (String.ofList (jsonText value))
  parseJson line := if line = sampleLine then .ok samplePlanValue else .error "not the sample line"

theorem textPrimitives_canonicalJsonBytes (value : Json) :
    textPrimitives.canonicalJsonBytes value = Text.utf8 (String.ofList (jsonText value)) := rfl

/-- A query plan of the one row. -/
def samplePlanBytes : List UInt8 := Text.utf8 (sampleLine ++ "\n")

def samplePlanRow : PlanRow := ⟨"q", "text", "dense", 5, []⟩

theorem parsePlanRow_sampleLine : parsePlanRow textPrimitives sampleLine = .ok samplePlanRow := by
  have hparse : textPrimitives.parseJson sampleLine = .ok samplePlanValue := by
    show (if sampleLine = sampleLine then Except.ok samplePlanValue
      else .error "not the sample line") = _
    exact if_pos rfl
  rw [parsePlanRow, hparse]
  simp only [Except.mapError, bind_eq_ok, exists_unit, throwIf_eq_ok, orThrow_eq_ok, pure_eq_ok]
  exact ⟨samplePlanValue, rfl, _, rfl, "q", rfl, "text", rfl, "dense", rfl, 5, rfl, [], rfl, [], rfl,
    by decide, rfl⟩

/-- What the one row leaves behind. -/
def samplePlanScan : PlanScan where
  requestRows := 1
  semanticRequestRows := 1
  queryById := SortedMap.empty.insert "q" ("text", 5, [])
  modeSurfaces := insert (samplePlanRow.queryId, samplePlanRow.mode) ∅
  surfaces := insert samplePlanRow.surface ∅
  uniqueSemanticQueries := [⟨"q", "text"⟩]

theorem scanPlanLine_sampleLine :
    scanPlanLine textPrimitives .empty sampleLine = .ok samplePlanScan := by
  simp only [scanPlanLine, bind_eq_ok, exists_unit, throwIf_eq_ok, orThrow_eq_ok]
  refine ⟨1, rfl, 1, rfl, by decide, _, parsePlanRow_sampleLine, Finset.notMem_empty _, _, rfl, ?_⟩
  rw [if_pos (by decide)]
  simp only [bind_eq_ok, orThrow_eq_ok, pure_eq_ok]
  refine ⟨1, rfl, 1, rfl, ?_⟩
  rw [if_neg (by simp [PlanScan.empty])]
  rfl

def sampleParsedPlan : ParsedQueryPlan := ⟨1, 1, [⟨"q", "text"⟩], samplePlanScan.surfaces⟩

theorem parseQueryPlan_samplePlanBytes :
    parseQueryPlan textPrimitives samplePlanBytes = .ok sampleParsedPlan := by
  have hlines : Text.lines (sampleLine ++ "\n") = [sampleLine] := by decide +kernel
  have hlast : samplePlanBytes.getLast? = some 10 := by
    rw [samplePlanBytes, Text.utf8_append, List.getLast?_append_of_ne_nil _ (by decide)]
    rfl
  have hscan : (Text.lines (sampleLine ++ "\n")).foldlM (scanPlanLine textPrimitives) .empty =
      .ok samplePlanScan := by
    rw [hlines, List.foldlM_cons, scanPlanLine_sampleLine]
    rfl
  simp only [parseQueryPlan, bind_eq_ok, exists_unit, throwIf_eq_ok, orThrow_eq_ok, not_or,
    pure_eq_ok]
  exact ⟨not_not.mpr hlast, _, Text.fromUtf8_utf8 _, _, hscan, by decide, rfl⟩

def sampleQueryExecution : RunpodExecutionIdentity where
  executorImage := sampleComponent "image"
  executorImageBuild := sampleComponent "image-build"
  runtime := sampleComponent "runtime"
  workerBinary := sampleComponent "worker"
  modelArtifact := sampleComponent "model"
  embeddingProfile := sampleComponent "profile"
  accelerator := ⟨"provider", "model", "architecture", "9.0", 1⟩
  returnedModel := "model"

/-- An execution under a policy of the given name. -/
def sampleBinding (policyId : String) : QueryVectorExecutionBinding where
  embeddingProfile := sampleComponent "profile"
  embeddingPolicy := sampleComponent policyId
  executionIdentitySha256 := canonicalDigest textPrimitives (toJson sampleQueryExecution)
  execution := sampleQueryExecution
  executorImageBuildReceipt := sampleComponent "image-build"

theorem sampleBinding_valid {policyId : String} (h : policyId ≠ "") :
    (sampleBinding policyId).validate textPrimitives = .ok () := by
  have hcomponent : ∀ {id : String}, id ≠ "" → (sampleComponent id).validate = .ok () := by
    intro id hid
    simp only [ComponentRef.validate, bind_eq_ok, exists_unit, requireText_eq_ok]
    exact ⟨hid, show "1" ≠ "" by decide⟩
  have hcomponents : forM [sampleQueryExecution.executorImage,
      sampleQueryExecution.executorImageBuild, sampleQueryExecution.runtime,
      sampleQueryExecution.workerBinary, sampleQueryExecution.modelArtifact,
      sampleQueryExecution.embeddingProfile] ComponentRef.validate = .ok () := by decide
  have htexts : (forM ["provider", "model", "architecture", "9.0", "model"] fun value =>
      throwIf (Text.IsBlank value) (.invalid "query vector execution identity")) =
        (.ok () : Result Unit) := by decide
  simp only [QueryVectorExecutionBinding.validate, bind_eq_ok, exists_unit, throwIf_eq_ok, not_or,
    not_not]
  exact ⟨hcomponent (by decide), hcomponent h, hcomponent (by decide), hcomponents, htexts,
    rfl, rfl, rfl, rfl⟩

/-- The vector of the one query has the single value 1. -/
def sampleInput : QueryVectorSetInput := ⟨"q", "text", "query: text", [1065353216]⟩

def sampleUnitNorm (vector : List F32) : Bool := vector = [1065353216]

theorem sampleInput_valid :
    validateVector sampleUnitNorm sampleInput.vector "l2" = .ok () := by
  have hfinite : F32.IsFinite 1065353216 := by
    show 1065353216 / 2 ^ 23 % 2 ^ 8 ≠ 255
    decide
  simp only [validateVector, bind_eq_ok, exists_unit, throwIf_eq_ok, not_or, not_and, not_not]
  refine ⟨⟨List.cons_ne_nil _ _, ?_⟩, fun _ => ?_⟩
  · rintro ⟨value, hvalue, hinfinite⟩
    obtain rfl := List.mem_singleton.mp hvalue
    exact hinfinite hfinite
  · exact decide_eq_true rfl

theorem sample_writeAccepted {policyId : String} (h : policyId ≠ "") :
    WriteAccepted textPrimitives sampleUnitNorm samplePlanBytes sampleParsedPlan
      (sampleBinding policyId) 1 "l2" [sampleInput] where
  execution_ok := sampleBinding_valid h
  inputs_ne := List.cons_ne_nil _ _
  inputs_le := Nat.succ_le_of_lt (by decide)
  dimensions_ne := by decide
  normalization_mem := by decide
  plan_le := by decide +kernel
  parsed_ok := parseQueryPlan_samplePlanBytes
  supplied := .cons ⟨rfl, rfl, by decide, rfl, sampleInput_valid⟩ .nil
  vectors_ne := by decide
  vectors_le := by decide

/-- The manifest of the sample set under a policy. -/
def sampleSetManifest (policyId : String) : QueryVectorSetManifest :=
  describedManifest textPrimitives samplePlanBytes sampleParsedPlan (sampleBinding policyId) 1 "l2"
    [sampleInput]

/-- The files of the sample set. -/
def sampleSetFiles (policyId : String) : QueryVectorFiles :=
  ⟨textPrimitives.canonicalJsonBytes (toJson (sampleSetManifest policyId)), samplePlanBytes,
    inputVectors [sampleInput]⟩

/-- A reader that knows the one manifest. -/
def readSampleManifest (policyId : String) (bytes : List UInt8) : Result QueryVectorSetManifest :=
  if bytes = (sampleSetFiles policyId).manifest then .ok (sampleSetManifest policyId)
  else .error (.json "not the sample manifest")

theorem sampleSet_written {policyId : String} (h : policyId ≠ "") :
    writeQueryVectorSet textPrimitives sampleUnitNorm samplePlanBytes (sampleBinding policyId) 1
      "l2" [sampleInput] = .ok (sampleSetManifest policyId, sampleSetFiles policyId) :=
  writeQueryVectorSet_eq_ok.mpr ⟨_, sample_writeAccepted h, rfl, rfl⟩

theorem readSampleManifest_files (policyId : String) :
    readSampleManifest policyId (sampleSetFiles policyId).manifest =
      .ok (sampleSetManifest policyId) := if_pos rfl

/-- The name of the policy is a text in the manifest. -/
theorem length_policyId_le (manifest : QueryVectorSetManifest) :
    manifest.execution.embeddingPolicy.id.toList.length + 2 ≤
      (textPrimitives.canonicalJsonBytes (toJson manifest)).length := by
  have hid : (jsonText (toJson manifest.execution.embeddingPolicy.id)).length ≤
      (jsonText (toJson manifest.execution.embeddingPolicy)).length := by
    refine length_jsonText_le ?_ (List.mem_cons_self ..)
    show ["id", "version", "sha256"].Nodup
    decide
  have hpolicy : (jsonText (toJson manifest.execution.embeddingPolicy)).length ≤
      (jsonText (toJson manifest.execution)).length := by
    refine length_jsonText_le ?_ (List.mem_cons_of_mem _ (List.mem_cons_self ..))
    show ["embedding_profile", "embedding_policy", "execution_identity_sha256", "execution",
      "executor_image_build_receipt"].Nodup
    decide
  have hexecution : (jsonText (toJson manifest.execution)).length ≤
      (jsonText (toJson manifest)).length := by
    have hmem : ("execution", toJson manifest.execution) ∈
        ("component_sha256", toJson manifest.componentSha256) :: manifest.body := by
      simp [QueryVectorSetManifest.body]
    refine length_jsonText_le ?_ hmem
    show ["component_sha256", "schema_version", "status", "query_plan", "request_rows",
      "semantic_request_rows", "execution", "vectors", "queries"].Nodup
    decide
  have hbytes := Text.length_le_length_utf8 (String.ofList (jsonText (toJson manifest)))
  rw [String.toList_ofList] at hbytes
  rw [textPrimitives_canonicalJsonBytes]
  calc manifest.execution.embeddingPolicy.id.toList.length + 2
      = (jsonText (toJson manifest.execution.embeddingPolicy.id)).length := by
        simp [toJson, jsonText]
    _ ≤ (jsonText (toJson manifest.execution.embeddingPolicy)).length := hid
    _ ≤ (jsonText (toJson manifest.execution)).length := hpolicy
    _ ≤ (jsonText (toJson manifest)).length := hexecution
    _ ≤ (Text.utf8 (String.ofList (jsonText (toJson manifest)))).length := hbytes

theorem length_sampleSetFiles (policyId : String) :
    policyId.toList.length + 2 ≤ (sampleSetFiles policyId).manifest.length := by
  have hpolicy : (sampleSetManifest policyId).execution.embeddingPolicy.id = policyId := rfl
  have hfile : (sampleSetFiles policyId).manifest =
      textPrimitives.canonicalJsonBytes (toJson (sampleSetManifest policyId)) := by
    rw [sampleSetFiles]
  have hlength := length_policyId_le (sampleSetManifest policyId)
  rw [hpolicy, ← hfile] at hlength
  exact hlength

theorem sampleSetFiles_ne_nil (policyId : String) : (sampleSetFiles policyId).manifest ≠ [] := by
  have hlength := length_sampleSetFiles policyId
  exact List.ne_nil_of_length_pos (by omega)

/-- **The round trip.** A set that has been written makes the round trip exactly when
its manifest is not larger than a manifest may be: the writer does not check the
length that the reader refuses. -/
theorem openWritten_iff (prims : Primitives) (unitNorm : List F32 → Bool)
    (readManifest : List UInt8 → Result QueryVectorSetManifest) (queryPlanBytes : List UInt8)
    (execution : QueryVectorExecutionBinding) (dimensions : U32) (normalization : String)
    (inputs : List QueryVectorSetInput) (manifest : QueryVectorSetManifest)
    (files : QueryVectorFiles)
    (hwrite : writeQueryVectorSet prims unitNorm queryPlanBytes execution dimensions normalization
      inputs = .ok (manifest, files))
    (hread : readManifest files.manifest = .ok manifest) (hfile : files.manifest ≠ []) :
    RoundTrips prims unitNorm readManifest queryPlanBytes execution dimensions normalization inputs
        files ↔
      ManifestFits prims queryPlanBytes execution dimensions normalization inputs := by
  obtain ⟨parsed, haccepted, rfl, rfl⟩ := writeQueryVectorSet_eq_ok.mp hwrite
  obtain ⟨rows, hrows, hplan⟩ := parseQueryPlan_accepted haccepted.parsed_ok
  constructor
  · intro htrips other hother
    obtain rfl := Except.ok.inj (haccepted.parsed_ok.symm.trans hother)
    obtain ⟨sealedSet, hopen, -⟩ := htrips none (by simp)
    simp only [SealedQueryVectorSet.open, bind_eq_ok, exists_unit, throwIf_eq_ok, not_or,
      not_lt] at hopen
    exact hopen.1.2
  · intro hfits expected hexpected
    have hopen := haccepted.open_eq_ok hfile hread (hfits parsed haccepted.parsed_ok) hexpected
    refine ⟨_, hopen, ⟨rows, hrows, fun row hrow hsemantic => ⟨?_, fun input hinput hid =>
      haccepted.vectorForRequest_eq_ok hplan hrow hsemantic hinput hid⟩⟩,
      (open_indexed hopen).servesUniquely⟩
    obtain ⟨planned, hplanned, hid, -⟩ := hplan.planned row hrow hsemantic
    obtain ⟨input, hinput, hsupplies⟩ := exists_right_of_mem haccepted.supplied hplanned
    exact ⟨input, hinput, hsupplies.queryId.symm.trans hid⟩

theorem openWritten_iff_policy :
    RoundTrips textPrimitives sampleUnitNorm (readSampleManifest "policy") samplePlanBytes
        (sampleBinding "policy") 1 "l2" [sampleInput] (sampleSetFiles "policy") ↔
      ManifestFits textPrimitives samplePlanBytes (sampleBinding "policy") 1 "l2" [sampleInput] :=
  openWritten_iff textPrimitives sampleUnitNorm (readSampleManifest "policy") samplePlanBytes
    (sampleBinding "policy") 1 "l2" [sampleInput] (sampleSetManifest "policy")
    (sampleSetFiles "policy") (sampleSet_written (by decide)) (readSampleManifest_files "policy")
    (sampleSetFiles_ne_nil "policy")

/-- The name of a policy that is longer than a manifest may be. -/
def longPolicyId : String := String.ofList (List.replicate (maxManifestBytes + 1) 'p')

/-- A set that is written and read back, and does not open. -/
theorem longPolicy_not_roundTrips :
    writeQueryVectorSet textPrimitives sampleUnitNorm samplePlanBytes (sampleBinding longPolicyId) 1
        "l2" [sampleInput] = .ok (sampleSetManifest longPolicyId, sampleSetFiles longPolicyId) ∧
      readSampleManifest longPolicyId (sampleSetFiles longPolicyId).manifest =
        .ok (sampleSetManifest longPolicyId) ∧
      ¬ RoundTrips textPrimitives sampleUnitNorm (readSampleManifest longPolicyId) samplePlanBytes
        (sampleBinding longPolicyId) 1 "l2" [sampleInput] (sampleSetFiles longPolicyId) := by
  have hlength : longPolicyId.toList.length = maxManifestBytes + 1 := by
    rw [longPolicyId, String.toList_ofList, List.length_replicate]
  have hne : longPolicyId ≠ "" := by
    intro hempty
    rw [hempty] at hlength
    cases hlength
  refine ⟨sampleSet_written hne, readSampleManifest_files longPolicyId, fun htrips => ?_⟩
  obtain ⟨sealedSet, hopen, -⟩ := htrips none (by simp)
  simp only [SealedQueryVectorSet.open, bind_eq_ok, exists_unit, throwIf_eq_ok, not_or,
    not_lt] at hopen
  have hmanifest := length_sampleSetFiles longPolicyId
  rw [hlength] at hmanifest
  exact absurd hopen.1.2 (by omega)

end LivefireRag.Pipeline
