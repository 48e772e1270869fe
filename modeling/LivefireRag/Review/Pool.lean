import LivefireRag.Lib.Grouping
import LivefireRag.Lib.PyJson
import LivefireRag.Lib.Ranking
import LivefireRag.Pipeline.Basic

/-!
# The review pool

Reviewers mark documents without knowing which system found them. The tool takes one
finished batch-search run, checks that it is closed over its catalogue and its query
fixture, checks every hit against the index it came from, and pools the hits: one row for
each query and document, named by an opaque identifier (`poolRows`). What the systems said
about the document is kept apart, for the audit.
-/

namespace LivefireRag.Review

open Fallible Pipeline

/-- The tool refuses its input, or the interpreter raises another exception. -/
inductive ReviewError where
  | pool (text : String)
  | raised
  deriving DecidableEq

abbrev Result := Except ReviewError

def modes : List String := ["lexical", "dense", "fused"]

/-! ### Checks of values -/

/-- `value[key]` -/
def item (value : Json) (key : String) : Result Json := orThrow (value.get? key) .raised

/-- `value.get(key)` -/
def getItem (value : Json) (key : String) : Result Json :=
  match value with
  | .object members => .ok ((Json.field? members key).getD .null)
  | _ => .error .raised

def requireSha256 (value : Json) (label : String) : Result String := do
  let text ← orThrow value.asStr (.pool (label ++ " is not a lowercase SHA-256 digest"))
  throwIf (¬ IsDigest text) (.pool (label ++ " is not a lowercase SHA-256 digest"))
  return text

def requireText (value : Json) (label : String) (maximum : ℕ) : Result String := do
  let text ← orThrow value.asStr (.pool (label ++ " is invalid"))
  throwIf ((∀ c ∈ text.toList, Json.IsPySpace c) ∨ maximum < text.utf8ByteSize)
    (.pool (label ++ " is invalid"))
  return text

/-- A count from `minimum` on. -/
def requireCount (value : Json) (label : String) (minimum : ℕ) : Result ℕ := do
  let count ← orThrow value.asPyInt (.pool (label ++ " is invalid"))
  throwIf (count < minimum ∨ maxSafeJsonInteger < count) (.pool (label ++ " is invalid"))
  return count.toNat

structure ComponentText where
  id : String
  version : String
  sha256 : String
  deriving DecidableEq

def componentRef (value : Json) (label : String) : Result ComponentText := do
  throwIf (¬ value.HasFields ["id", "version", "sha256"])
    (.pool (label ++ " component reference is invalid"))
  let id ← requireText (value.member "id") (label ++ " id") 512
  let version ← requireText (value.member "version") (label ++ " version") 512
  let sha256 ← requireSha256 (value.member "sha256") (label ++ " sha256")
  return { id, version, sha256 }

/-! ### The query fixture -/

structure FixtureQuery where
  queryId : String
  query : String
  deriving DecidableEq

structure DocumentRow where
  documentId : Json
  semanticText : Json

structure OccurrenceRow where
  documentId : Json
  eventTimeMs : Json
  relation : Json
  snapshotSha256 : Json
  mappingSha256 : Json
  eventId : Json
  supportRef : Json

/-- What the tool takes from its libraries: decoding JSON, which refuses repeated keys and
numbers that are none, the numbers of a hit, and reading the two databases of an index. -/
structure Reading where
  decodeJson : List UInt8 → Option Json
  isFinite : Json → Bool
  /-- The number is `1.0 / (60 + rank)`. -/
  isReciprocalRank : Json → ℕ → Bool
  /-- The documents of a lexical index that passes its integrity check. -/
  documents : List UInt8 → Option (List DocumentRow)
  /-- The occurrences of a lookup that passes its check, in the order of their identifiers. -/
  occurrences : List UInt8 → Option (List OccurrenceRow)

section Checks

variable (prims : Primitives) (reading : Reading)

def sha256Text (bytes : List UInt8) : String := (digestBytes prims bytes).val

def componentSha256 (value : Json) : Result String := do
  let (_, material) ← orThrow (value.remove "component_sha256")
    (.pool "component_sha256 is absent")
  return (canonicalDigest prims material).val

def validateFixtureRow (queries : List FixtureQuery) (entry : Json × ℕ) :
    Result (List FixtureQuery) := do
  let (row, ordinal) := entry
  throwIf (row.asObject = none) (.pool s!"query fixture row {ordinal} is invalid")
  let queryId ← requireText (row.member "query_id") "fixture query_id" 128
  let query ← requireText (row.member "query") "fixture query" 8192
  throwIf (queryId ∈ queries.map (·.queryId)) (.pool "query fixture has duplicate query IDs")
  return queries ++ [{ queryId, query }]

def validateFixture (raw : List UInt8) : Result (String × List FixtureQuery) := do
  let fixture ← orThrow (reading.decodeJson raw) (.pool "invalid JSON")
  throwIf (fixture.asObject = none ∨ ¬ (fixture.member "schema_version").pyEq
      (.string "livefire.rag.generic-evidence-pilot-queries/1"))
    (.pool "query fixture has the wrong schema version")
  let rows ← orThrow (fixture.member "queries").asArray (.pool "query fixture is empty")
  throwIf (rows = []) (.pool "query fixture is empty")
  let queries ← rows.zipIdx.foldlM validateFixtureRow []
  return (sha256Text prims raw, queries)

/-! ### Requests and results -/

/-- The text of a query in the fixture. A list or an object is no key of a dictionary. -/
def fixtureText (fixture : List FixtureQuery) (queryId : Json) : Result (Option String) :=
  match queryId with
  | .array _ => .error .raised
  | .object _ => .error .raised
  | .string id => .ok ((fixture.find? fun q => q.queryId = id).map (·.query))
  | _ => .ok none

/-- The query identifier and the mode of a request of the fixture. -/
def boundRequest (fixture : List FixtureQuery) (request : Json) (ordinal : ℕ) :
    Result (String × String) := do
  let text ← fixtureText fixture (request.member "query_id")
  let text ← orThrow text (.pool s!"request {ordinal} is not bound to the frozen fixture")
  throwIf (¬ (request.member "query").pyEq (.string text) ∨
      ∀ mode ∈ modes, ¬ (request.member "mode").pyEq (.string mode))
    (.pool s!"request {ordinal} is not bound to the frozen fixture")
  let queryId ← orThrow (request.member "query_id").asStr .raised
  let mode ← orThrow (request.member "mode").asStr .raised
  return (queryId, mode)

def resultFields : List String :=
  ["schema_version", "query_id", "catalogue_sha256", "query", "mode", "top_n", "relations",
    "rank_merge", "hits"]

/-- The hits of a result. -/
def hitsOf (result : Json) : List Json := (result.member "hits").asArray.getD []

/-- The result repeats its request and the catalogue. -/
def RepeatsRequest (catalogueSha : String) (request result : Json) (topN : ℕ) : Prop :=
  (result.member "schema_version").pyEq (.string "livefire.rag.catalogue-batch-search-result/1") ∧
    (result.member "query_id").pyEq (request.member "query_id") ∧
    (result.member "catalogue_sha256").pyEq (.string catalogueSha) ∧
    (result.member "query").pyEq (request.member "query") ∧
    (result.member "mode").pyEq (request.member "mode") ∧
    (result.member "top_n").pyEq (request.member "top_n") ∧
    (result.member "relations").pyEq (request.member "relations") ∧
    (result.member "rank_merge").pyEq (.string "reciprocal_rank_fusion_v1") ∧
    (result.member "hits").asArray ≠ none ∧ (hitsOf result).length ≤ topN

instance (catalogueSha : String) (request result : Json) (topN : ℕ) :
    Decidable (RepeatsRequest catalogueSha request result topN) := by
  unfold RepeatsRequest
  infer_instance

local instance surface_lawfulBEq : LawfulBEq (String × String) := inferInstance

def validateSurface (fixture : List FixtureQuery) (catalogueSha : String)
    (observed : List (String × String)) (entry : (Json × Json) × ℕ) :
    Result (List (String × String)) := do
  let ((request, result), ordinal) := entry
  throwIf (¬ request.HasFields ["query_id", "query", "mode", "top_n", "relations"])
    (.pool s!"request {ordinal} has the wrong fields")
  let surface ← boundRequest fixture request ordinal
  throwIf (¬ (request.member "relations").pyEq (.array []))
    (.pool "review comparison requests must not use relation hints")
  let topN ← requireCount (request.member "top_n") "request top_n" 1
  throwIf (surface ∈ observed) (.pool "duplicate query/mode request surface")
  throwIf (¬ result.HasFields resultFields) (.pool s!"result {ordinal} has the wrong fields")
  throwIf (¬ RepeatsRequest catalogueSha request result topN)
    (.pool s!"request/result ordered closure failed at row {ordinal}")
  return observed ++ [surface]

def validateRequestResultClosure (manifest : Json) (requests results : List Json)
    (fixture : List FixtureQuery) : Result Unit := do
  let catalogueSha ← requireSha256 (manifest.member "catalogue_sha256") "raw catalogue_sha256"
  throwIf (requests.length ≠ results.length) .raised
  let observed ← (requests.zip results).zipIdx.foldlM (validateSurface fixture catalogueSha) []
  let expected := fixture.flatMap fun query => modes.map fun mode => (query.queryId, mode)
  throwIf (¬ ((∀ surface ∈ observed, surface ∈ expected) ∧
      ∀ surface ∈ expected, surface ∈ observed))
    (.pool "raw run does not contain every frozen query in all three modes")

/-! ### The catalogue and its indexes -/

structure CatalogueScan where
  ids : List String
  digests : List String

def validateDataset (profile : ComponentText) (scan : CatalogueScan) (entry : Json) :
    Result CatalogueScan := do
  throwIf (entry.asObject = none ∨ (entry.member "dataset").asObject = none)
    (.pool "catalogue dataset entry is invalid")
  let dataset := entry.member "dataset"
  let id ← requireText (dataset.member "id") "catalogue dataset ID" 512
  let datasetSha ← requireSha256 (entry.member "dataset_sha256") "catalogue dataset_sha256"
  throwIf (datasetSha ≠ (canonicalDigest prims dataset).val)
    (.pool "catalogue dataset identity digest mismatch")
  throwIf (id ∈ scan.ids ∨ datasetSha ∈ scan.digests)
    (.pool "catalogue dataset identity is duplicated")
  let datasetProfile ← componentRef (entry.member "embedding_profile") "dataset embedding profile"
  throwIf (datasetProfile ≠ profile)
    (.pool "catalogue dataset uses a different embedding profile")
  let _ ← requireCount (entry.member "searchable_document_count") "searchable_document_count" 1
  let _ ← requireCount (entry.member "searchable_reference_count") "searchable_reference_count" 1
  return { ids := scan.ids ++ [id], digests := scan.digests ++ [datasetSha] }

/-- The datasets of a catalogue that the raw run names. -/
def validateCatalogue (raw : List UInt8) (manifest : Json) : Result (List Json) := do
  let catalogue ← orThrow (reading.decodeJson raw) (.pool "invalid JSON")
  throwIf (catalogue.asObject = none) (.pool "the catalogue must contain a JSON object")
  throwIf (¬ (catalogue.member "schema_version").pyEq (.string "livefire.rag.dataset-catalogue/1"))
    (.pool "catalogue has the wrong schema version")
  let component ← requireSha256 (catalogue.member "component_sha256") "catalogue component_sha256"
  let digest ← componentSha256 prims catalogue
  throwIf (component ≠ digest ∨ ¬ (manifest.member "catalogue_sha256").pyEq (.string component))
    (.pool "catalogue component binding failed")
  let profile ← componentRef (catalogue.member "embedding_profile") "catalogue embedding profile"
  let rawProfile ← componentRef (manifest.member "embedding_profile") "raw embedding profile"
  throwIf (profile ≠ rawProfile)
    (.pool "raw run uses a different embedding profile from the catalogue")
  let datasets ← orThrow (catalogue.member "datasets").asArray (.pool "catalogue has no datasets")
  throwIf (datasets = []) (.pool "catalogue has no datasets")
  let _ ← datasets.foldlM (validateDataset prims profile) { ids := [], digests := [] }
  return datasets

/-- The files below the directory of the catalogue, by the parts of their paths. -/
abbrev Files := List String → Option (List UInt8)

/-- The parts of a path, as `PurePosixPath` has them. -/
def pathParts (relative : String) : List String :=
  (Text.split '/' relative).filter fun part => part ≠ "" ∧ part ≠ "."

/-- A file of an artifact. The links of the file system are left out. -/
def safeArtifact (files : Files) (root : List String) (relative : Json) (label : String) :
    Result (List String × List UInt8) := do
  let text ← orThrow relative.asStr (.pool (label ++ " path is invalid"))
  let parts := pathParts text
  throwIf (text.toList.head? = some '/' ∨ parts = [] ∨ ".." ∈ parts ∨ '\\' ∈ text.toList ∨
      ':' ∈ text.toList ∨ '\x00' ∈ text.toList)
    (.pool (label ++ " path is unsafe"))
  let bytes ← orThrow (files (root ++ parts)) .raised
  return (root ++ parts, bytes)

/-- The bytes of an object that its summary describes. -/
def validateObject (files : Files) (root : List String) (summary : Json) (label : String) :
    Result (List UInt8) := do
  throwIf (summary.asObject = none) (.pool (label ++ " summary is invalid"))
  let (_, bytes) ← safeArtifact files root (summary.member "path") label
  let size ← requireCount (summary.member "bytes") (label ++ " bytes") 1
  let digest ← requireSha256 (summary.member "sha256") (label ++ " sha256")
  throwIf (bytes.length ≠ size ∨ sha256Text prims bytes ≠ digest)
    (.pool (label ++ " content receipt mismatch"))
  return bytes

/-- An index that its catalogue entry names. -/
structure LoadedIndex where
  datasetSha256 : String
  entry : Json
  manifest : Json
  componentSha256 : String
  lexical : List UInt8
  lookup : List UInt8

/-- `value.get(key, {}).get("rows")` -/
def rowsOf (value : Json) (key : String) : Result Json :=
  getItem ((value.get? key).getD (.object [])) "rows"

/-- `value[key].get("sha256")` -/
def shaOf (value : Json) (key : String) : Result Json := do
  let reference ← item value key
  getItem reference "sha256"

/-- `value[key]["sha256"]` -/
def shaAt (value : Json) (key : String) : Result Json := do
  let reference ← item value key
  item reference "sha256"

/-- The manifest of an index is the one its catalogue entry names, and was built from it. -/
def validateIndexBinding (entry index : Json) (finalSha : Json) : Result String := do
  let component ← requireSha256 (index.member "component_sha256") "index component_sha256"
  let digest ← componentSha256 prims index
  throwIf (component ≠ digest ∨ ¬ finalSha.pyEq (.string component))
    (.pool "final index component binding failed")
  let scope := index.member "build_scope"
  let complete := index.member "complete"
  throwIf (¬ (scope.pyEq (.string "full") ∨ scope.pyEq (.string "sample")) ∨ complete.asBool = none)
    (.pool "final index build-scope declaration is invalid")
  throwIf (complete.asBool ≠ some (scope.pyEq (.string "full")))
    (.pool "final index build-scope declaration is inconsistent")
  let dataset := entry.member "dataset"
  let snapshot ← requireSha256 (← shaOf dataset "source_snapshot") "dataset source snapshot sha256"
  let mapping ← requireSha256 (← shaOf dataset "mapping") "dataset mapping sha256"
  throwIf (¬ (index.member "source").pyEq (.mkObject
      [("snapshot_sha256", .string snapshot), ("mapping_sha256", .string mapping)]))
    (.pool "final index source binding failed")
  let prepared ← shaAt entry "prepared_corpus"
  let plan ← shaAt entry "embedding_plan"
  let resultSet ← shaAt entry "embedding_result_set"
  throwIf (¬ (index.member "pipeline_provenance").pyEq (.mkObject
      [("dataset_sha256", entry.member "dataset_sha256"), ("prepared_corpus_sha256", prepared),
        ("embedding_plan_sha256", plan), ("embedding_result_set_sha256", resultSet)]))
    (.pool "final index dataset binding failed")
  let documents ← requireCount (← rowsOf index "documents") "index document rows" 1
  let occurrences ← requireCount (← rowsOf index "occurrences") "index occurrence rows" 1
  throwIf (¬ (entry.member "searchable_document_count").pyEq (.number (.posInt documents)) ∨
      ¬ (entry.member "searchable_reference_count").pyEq (.number (.posInt occurrences)))
    (.pool "catalogue/index count binding failed")
  return component

def loadIndex (files : Files) (entry : Json) : Result LoadedIndex := do
  let finalRef := entry.member "final_index"
  throwIf (finalRef.asObject = none) (.pool "catalogue final index reference is invalid")
  let (path, raw) ← safeArtifact files [] (finalRef.member "path") "final index manifest"
  let index ← orThrow (reading.decodeJson raw) (.pool "invalid JSON")
  throwIf (index.asObject = none) (.pool "the index manifest must contain a JSON object")
  let component ← validateIndexBinding prims entry index (finalRef.member "sha256")
  let lexical := index.member "lexical"
  throwIf (lexical.asObject = none ∨
      ¬ (lexical.member "schema").pyEq (.string "sqlite-inverted-bm25-v1"))
    (.pool "review pooling requires the scalable SQLite lexical index")
  let lexicalBytes ← validateObject prims files path.dropLast lexical "lexical index"
  let lookupBytes ← validateObject prims files path.dropLast (index.member "occurrence_lookup")
    "occurrence lookup"
  let datasetSha ← orThrow (entry.member "dataset_sha256").asStr .raised
  return {
    datasetSha256 := datasetSha
    entry := entry
    manifest := index
    componentSha256 := component
    lexical := lexicalBytes
    lookup := lookupBytes }

def loadIndexes (files : Files) (datasets : List Json) : Result (List LoadedIndex) :=
  datasets.mapM (loadIndex prims reading files)

/-! ### Hits -/

/-- What an index says about its documents. -/
structure IndexContents where
  datasetSha256 : String
  dataset : Json
  componentSha256 : String
  documents : List DocumentRow
  occurrences : List OccurrenceRow

def openIndex (loaded : LoadedIndex) : Result IndexContents := do
  let documents ← orThrow (reading.documents loaded.lexical) (.pool "SQLite integrity check failed")
  let occurrences ← orThrow (reading.occurrences loaded.lookup)
    (.pool "SQLite integrity check failed")
  return {
    datasetSha256 := loaded.datasetSha256
    dataset := loaded.entry.member "dataset"
    componentSha256 := loaded.componentSha256
    documents := documents
    occurrences := occurrences }

/-- What a reviewer is shown of a document. -/
structure ReviewMaterial where
  datasetId : Json
  documentId : String
  semanticText : String
  eligibleOccurrenceCount : ℕ
  occurrences : List Json

def ReviewMaterial.fields (material : ReviewMaterial) : List (String × Json) :=
  [("dataset_id", material.datasetId), ("document_id", .string material.documentId),
    ("semantic_text", .string material.semanticText),
    ("eligible_occurrence_count", .number (.posInt material.eligibleOccurrenceCount)),
    ("occurrences", .array material.occurrences)]

def OccurrenceRow.pointer (row : OccurrenceRow) : Json :=
  .mkObject
    [("event_time_ms", row.eventTimeMs), ("relation", row.relation),
      ("snapshot_sha256", row.snapshotSha256), ("mapping_sha256", row.mappingSha256),
      ("event_id", row.eventId), ("support_ref", row.supportRef)]

def IndexContents.documentTexts (index : IndexContents) (documentId : String) : List Json :=
  (index.documents.filter fun row => row.documentId = .string documentId).map (·.semanticText)

def IndexContents.occurrencesOf (index : IndexContents) (documentId : String) :
    List OccurrenceRow :=
  index.occurrences.filter fun row => row.documentId = .string documentId

def validatePointer (row : OccurrenceRow) : Result Unit := do
  if row.eventTimeMs ≠ .null then
    let _ ← requireCount row.eventTimeMs "event_time_ms" 0
  let _ ← requireText row.relation "occurrence relation" 256
  let _ ← requireSha256 row.snapshotSha256 "occurrence snapshot_sha256"
  let _ ← requireSha256 row.mappingSha256 "occurrence mapping_sha256"
  let _ ← requireText row.eventId "occurrence event_id" 1024
  let _ ← requireText row.supportRef "occurrence support_ref" 1024

/-- What a system said about a document. -/
structure PrivateHit where
  datasetSha256 : String
  indexSha256 : Json
  catalogueRank : Json
  reciprocalRankScore : Json
  indexRank : Json
  hitRank : Json
  score : Json
  denseScore : Json
  lexicalScore : Json
  occurrencesExhausted : Json

def hitFields : List String :=
  ["rank", "reciprocal_rank_score", "dataset", "dataset_sha256", "index_sha256", "index_rank",
    "hit"]

def detailFields : List String :=
  ["rank", "document_id", "semantic_text", "score", "dense_score", "lexical_score",
    "eligible_occurrence_count", "occurrences_exhausted", "occurrences"]

def finiteNumber (value : Json) (label : String) : Result Unit :=
  throwIf (¬ reading.isFinite value) (.pool (label ++ " is invalid"))

def optionalFiniteNumber (value : Json) (label : String) : Result Unit :=
  throwIf (value ≠ .null ∧ ¬ reading.isFinite value) (.pool (label ++ " is invalid"))

/-- The document of a hit, as the index has it. -/
def exactDocument (index : IndexContents) (detail : Json) (documentId semanticText : String) :
    Result ReviewMaterial := do
  let eligibleCount ← requireCount (detail.member "eligible_occurrence_count")
    "eligible occurrence count" 0
  throwIf ((detail.member "occurrences_exhausted").asBool = none ∨
      (detail.member "occurrences").asArray = none)
    (.pool "hit occurrence summary is invalid")
  throwIf (index.documentTexts documentId ≠ [.string semanticText])
    (.pool "hit semantic text does not match the exact index document")
  let stored := index.occurrencesOf documentId
  let expected := (stored.take 50).map (·.pointer)
  throwIf (eligibleCount ≠ stored.length ∨ ¬ (detail.member "occurrences").pyEq (.array expected) ∨
      (detail.member "occurrences_exhausted").asBool ≠ some (decide (stored.length ≤ 50)))
    (.pool "hit occurrence pointers do not match the exact index lookup")
  forM (stored.take 50) validatePointer
  return {
    datasetId := index.dataset.member "id"
    documentId := documentId
    semanticText := semanticText
    eligibleOccurrenceCount := eligibleCount
    occurrences := expected }

/-- The ranks and scores of a hit. -/
def validateScores (detail : Json) (indexRank : ℕ) : Result Unit := do
  let hitRank ← requireCount (detail.member "rank") "hit rank" 1
  throwIf (hitRank ≠ indexRank)
    (.pool "catalogue index rank does not match the underlying hit rank")
  finiteNumber reading (detail.member "score") "hit score"
  optionalFiniteNumber reading (detail.member "dense_score") "dense score"
  optionalFiniteNumber reading (detail.member "lexical_score") "lexical score"

def privateHit (hit : Json) (datasetSha : String) : PrivateHit :=
  let detail := hit.member "hit"
  { datasetSha256 := datasetSha
    indexSha256 := hit.member "index_sha256"
    catalogueRank := hit.member "rank"
    reciprocalRankScore := hit.member "reciprocal_rank_score"
    indexRank := hit.member "index_rank"
    hitRank := detail.member "rank"
    score := detail.member "score"
    denseScore := detail.member "dense_score"
    lexicalScore := detail.member "lexical_score"
    occurrencesExhausted := detail.member "occurrences_exhausted" }

/-- A hit is checked against the index that it names. -/
def exactHit (indexes : List IndexContents) (hit : Json) :
    Result (ReviewMaterial × PrivateHit) := do
  throwIf (¬ hit.HasFields hitFields ∨ (hit.member "hit").asObject = none)
    (.pool "catalogue hit has the wrong fields")
  let datasetSha ← requireSha256 (hit.member "dataset_sha256") "hit dataset_sha256"
  let index ← orThrow (indexes.find? fun index => index.datasetSha256 = datasetSha)
    (.pool "hit names a dataset outside the admitted catalogue")
  throwIf (¬ (hit.member "dataset").pyEq index.dataset ∨
      ¬ (hit.member "index_sha256").pyEq (.string index.componentSha256))
    (.pool "hit dataset/index identity mismatch")
  let _ ← requireCount (hit.member "rank") "catalogue hit rank" 1
  let indexRank ← requireCount (hit.member "index_rank") "index hit rank" 1
  finiteNumber reading (hit.member "reciprocal_rank_score") "reciprocal-rank score"
  throwIf (¬ reading.isReciprocalRank (hit.member "reciprocal_rank_score") indexRank)
    (.pool "catalogue reciprocal-rank score is inconsistent")
  let detail := hit.member "hit"
  throwIf (¬ detail.HasFields detailFields) (.pool "index hit has the wrong fields")
  let documentId ← requireText (detail.member "document_id") "hit document_id" 512
  let semanticText ← requireText (detail.member "semantic_text") "hit semantic_text" 1048576
  validateScores reading detail indexRank
  let material ← exactDocument index detail documentId semanticText
  return (material, privateHit hit datasetSha)

/-! ### Pooling -/

/-- A candidate: a query identifier, a dataset and a document. -/
abbrev Candidate := String ×ₗ String ×ₗ String

def candidate (queryId datasetSha documentId : String) : Candidate :=
  toLex (queryId, toLex (datasetSha, documentId))

structure SystemRow where
  mode : Json
  resultOrdinal : ℕ
  hit : PrivateHit

/-- The two dictionaries of the pool. The order of their keys is not seen: the rows are
sorted by their identifiers, which must differ. -/
structure Pool where
  pooled : SortedMap Candidate ReviewMaterial
  provenance : SortedMap Candidate (List SystemRow)

def Pool.add (pool : Pool) (key : Candidate) (material : ReviewMaterial) (row : SystemRow) : Pool :=
  { pooled := pool.pooled.insert key material
    provenance := pool.provenance.insert key ((pool.provenance.get? key).getD [] ++ [row]) }

/-- The scores of a hit are those of the mode of its search. -/
def ScoresMatch (mode detail : Json) : Prop :=
  ¬ ((mode.pyEq (.string "dense") ∧
        (detail.member "dense_score" = .null ∨ detail.member "lexical_score" ≠ .null)) ∨
      (mode.pyEq (.string "lexical") ∧
        (detail.member "dense_score" ≠ .null ∨ detail.member "lexical_score" = .null)) ∨
      (mode.pyEq (.string "fused") ∧
        detail.member "dense_score" = .null ∧ detail.member "lexical_score" = .null))

instance (mode detail : Json) : Decidable (ScoresMatch mode detail) := by
  unfold ScoresMatch
  infer_instance

/-- One hit of a result. With the pool comes what the result has already returned. -/
def poolHit (indexes : List IndexContents) (queryId : String) (result : Json) (ordinal : ℕ)
    (state : Pool × List (String × String)) (entry : Json × ℕ) :
    Result (Pool × List (String × String)) := do
  let (hit, position) := entry
  let (pool, seen) := state
  let (material, shown) ← exactHit reading indexes hit
  throwIf (¬ (hit.member "rank").pyEq (.number (.posInt (position + 1))))
    (.pool "catalogue hit ranks are not ordered and contiguous")
  throwIf (¬ ScoresMatch (result.member "mode") (hit.member "hit"))
    (.pool "hit score fields do not match its search mode")
  let resultKey := (shown.datasetSha256, material.documentId)
  throwIf (resultKey ∈ seen) (.pool "one result contains the same catalogue document twice")
  let key := candidate queryId shown.datasetSha256 material.documentId
  throwIf (∃ existing ∈ pool.pooled.get? key,
      ¬ (Json.mkObject existing.fields).pyEq (.mkObject material.fields))
    (.pool "duplicate pooled candidate has inconsistent reviewer content")
  return (pool.add key material
    { mode := result.member "mode", resultOrdinal := ordinal, hit := shown },
    seen ++ [resultKey])

def poolResult (indexes : List IndexContents) (state : Pool × SortedMap String Json)
    (entry : Json × ℕ) : Result (Pool × SortedMap String Json) := do
  let (result, ordinal) := entry
  let queryId ← orThrow (result.member "query_id").asStr .raised
  let (pool, _) ← (hitsOf result).zipIdx.foldlM
    (poolHit reading indexes queryId result ordinal) (state.1, [])
  return (pool, state.2.insert queryId (result.member "query"))

structure ReviewRow where
  candidateId : String
  queryId : String
  query : Json
  material : ReviewMaterial

def ReviewRow.json (row : ReviewRow) : Json :=
  .mkObject ([("schema_version", .string "livefire.rag.catalogue-review-pool-row/1"),
    ("candidate_id", .string row.candidateId), ("query_id", .string row.queryId),
    ("query", row.query)] ++ row.material.fields)

structure ProvenanceRow where
  candidateId : String
  queryId : String
  datasetSha256 : String
  documentId : String
  systems : List SystemRow

def candidateId (fixtureSha : String) (key : Candidate) : String :=
  let (queryId, datasetSha, documentId) := (key.1, key.2.1, key.2.2)
  "candidate-" ++ (canonicalDigest prims (.mkObject
    [("domain", .string "livefire.rag.catalogue-review-candidate/1"),
      ("query_fixture_sha256", .string fixtureSha), ("query_id", .string queryId),
      ("dataset_sha256", .string datasetSha), ("document_id", .string documentId)])).val

def reviewRow (fixtureSha : String) (queries : SortedMap String Json)
    (entry : Candidate × ReviewMaterial) : Result ReviewRow := do
  let query ← orThrow (queries.get? entry.1.1) .raised
  return {
    candidateId := candidateId prims fixtureSha entry.1
    queryId := entry.1.1
    query := query
    material := entry.2 }

def provenanceRow (fixtureSha : String) (provenance : SortedMap Candidate (List SystemRow))
    (key : Candidate) : ProvenanceRow :=
  { candidateId := candidateId prims fixtureSha key
    queryId := key.1
    datasetSha256 := key.2.1
    documentId := key.2.2
    systems := Ranking.sortBy (·.resultOrdinal) ((provenance.get? key).getD []) }

/-- The reviewer rows and the private rows of a run. -/
def poolRows (results : List Json) (fixtureSha : String) (loaded : List LoadedIndex) :
    Result (List ReviewRow × List ProvenanceRow) := do
  let indexes ← loaded.mapM (openIndex reading)
  let (pool, queries) ← results.zipIdx.foldlM (poolResult reading indexes)
    (⟨.empty, .empty⟩, .empty)
  let rows ← pool.pooled.entries.mapM (reviewRow prims fixtureSha queries)
  let reviewRows := Ranking.sortBy (·.candidateId) rows
  let privateRows := Ranking.sortBy (·.candidateId)
    (pool.pooled.keys.map (provenanceRow prims fixtureSha pool.provenance))
  throwIf (reviewRows = []) (.pool "the raw run returned no review candidates")
  throwIf (¬ (reviewRows.map (·.candidateId)).Nodup) (.pool "opaque candidate ID collision")
  return (reviewRows, privateRows)

/-! ### The tool -/

/-- A raw run with the files that the tool is pointed at. -/
structure ReviewInputs where
  manifest : Json
  requests : List Json
  results : List Json
  fixture : List UInt8
  catalogue : List UInt8
  files : Files

/-- The pool of a run. `furtherChecks` are the checks of the run's manifest, of the embedding
profiles, of the candidate universe, of the snapshot and of the published schemas, which
refuse a run and otherwise leave the rows as they are. -/
def buildReviewPool
    (furtherChecks : ReviewInputs → List LoadedIndex → List ReviewRow → Result Unit)
    (inputs : ReviewInputs) : Result (List ReviewRow × List ProvenanceRow) := do
  let (fixtureSha, fixture) ← validateFixture prims reading inputs.fixture
  validateRequestResultClosure inputs.manifest inputs.requests inputs.results fixture
  let datasets ← validateCatalogue prims reading inputs.catalogue inputs.manifest
  let loaded ← loadIndexes prims reading inputs.files datasets
  let rows ← poolRows prims reading inputs.results fixtureSha loaded
  furtherChecks inputs loaded rows.1
  return rows

/-- The lines of the file that reviewers are given. -/
def reviewPoolBytes (rows : List ReviewRow) : List UInt8 :=
  rows.flatMap fun row => prims.canonicalJsonBytes row.json ++ [10]

end Checks

end LivefireRag.Review
