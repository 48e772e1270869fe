import Mathlib.Data.ZMod.Defs
import LivefireRag.Lib.Float32
import LivefireRag.Lib.Streams
import LivefireRag.Lib.Tables
import LivefireRag.Embedding.Profile
import LivefireRag.Index.Lexical

/-!
# Assembling an index

An index is written from three streams: documents in the order of their ids, occurrences
in any order, and vectors in the order of the documents. Each is written as it is read,
and what can only be seen at the end, that occurrences do not repeat and that every
document has as many as it announces, is asked of a database of ids (`OccurrenceLookup`)
by two unique indexes and one query. The files are built in a staging directory that
takes the name of the output at the end.

`writeFastIndex_ok_iff` says which streams are accepted. What it asks of them is
`Closed`, the closure of the three streams, and `Admissible`, what the writers check of
single rows and counters. `writeFastIndex_output` says what is at the output afterwards.
-/

namespace LivefireRag.Index

open Machine Fallible Tables LivefireRag.Embedding

def parquetWriteBatchRows : ℕ := 8192
def vectorHeaderBytes : U32 := 64
def occurrenceLookupSchema := "sqlite-occurrence-lookup-v1"

structure FastOccurrence where
  occurrenceId : String
  documentId : String
  eventTimeMs : Option U64
  relation : String
  exactAttributesJson : String
  snapshotSha256 : String
  mappingSha256 : String
  eventId : String
  supportRef : String
  deriving DecidableEq

structure OrderedVector where
  vectorOrdinal : U64
  values : List F32
  deriving DecidableEq

structure SourceBinding where
  snapshotSha256 : String
  mappingSha256 : String
  deriving DecidableEq

inductive BuildScope where
  | full
  | sample
  deriving DecidableEq

inductive LexicalFormat where
  | jsonV2
  | sqliteV3
  deriving DecidableEq

structure PipelineProvenance where
  datasetSha256 : String
  preparedCorpusSha256 : String
  embeddingPlanSha256 : String
  embeddingResultSetSha256 : String
  deriving DecidableEq

structure IndexAssemblyOptions where
  source : SourceBinding
  buildScope : BuildScope
  embeddingProfile : EmbeddingProfile
  lexicalFormat : LexicalFormat
  pipelineProvenance : Option PipelineProvenance
  testOnly : Bool
  deriving DecidableEq

/-! ### Identities -/

/-- A byte offset that does not cut a character. -/
def IsCharBoundary (bytes : List UInt8) (offset : ℕ) : Prop :=
  ∀ byte ∈ bytes[offset]?, ¬ (128 ≤ byte ∧ byte < 192)

instance (bytes : List UInt8) (offset : ℕ) : Decidable (IsCharBoundary bytes offset) := by
  unfold IsCharBoundary
  exact Option.decidableForallMem _

def hexDigitValue (byte : UInt8) : Option ℕ :=
  if 48 ≤ byte ∧ byte ≤ 57 then some (byte.toNat - 48)
  else if 97 ≤ byte ∧ byte ≤ 102 then some (byte.toNat - 87)
  else if 65 ≤ byte ∧ byte ≤ 70 then some (byte.toNat - 55)
  else none

/-- Two characters read as a number in base 16. A sign may stand for the first digit. -/
def hexPairValue (high low : UInt8) : Option ℕ :=
  if high = 43 then hexDigitValue low
  else do
    let h ← hexDigitValue high
    let l ← hexDigitValue low
    return 16 * h + l

/-- The byte written at a position. Cutting a character aborts. -/
def decodeSha256Byte (bytes : List UInt8) (index : ℕ) : Result UInt8 := do
  throwIf (¬ IsCharBoundary bytes (2 * index) ∨ ¬ IsCharBoundary bytes (2 * index + 2)) .aborted
  let high ← orThrow bytes[2 * index]? .aborted
  let low ← orThrow bytes[2 * index + 1]? .aborted
  let value ← orThrow (hexPairValue high low) (.invalid "sha256")
  return UInt8.ofNat value

def decodeSha256 (value : String) : Result (List UInt8) := do
  throwIf (value.utf8ByteSize ≠ 64) (.invalid "sha256")
  (List.range 32).mapM (decodeSha256Byte (Text.utf8 value))

/-- Whether a computation failed. A panic is not caught. -/
def isErr {α : Type} : Result α → Result Bool
  | .ok _ => .ok false
  | .error .aborted => .error .aborted
  | .error _ => .ok true

def validateAssemblyIdentity (source : SourceBinding) (profile : EmbeddingProfile) :
    Result Unit := do
  let snapshot ← isErr (decodeSha256 source.snapshotSha256)
  throwIf snapshot (.invalid "assembly identity")
  let mapping ← isErr (decodeSha256 source.mappingSha256)
  throwIf mapping (.invalid "assembly identity")
  throwIf (validateEmbeddingProfile profile ≠ .ok ()) (.invalid "assembly identity")

/-! ### The database of ids -/

structure AssemblyDocument where
  documentId : String
  expectedOccurrences : ℕ
  deriving DecidableEq

structure OccurrenceRow where
  occurrenceId : String
  documentId : String
  eventTimeMs : Option ℕ
  relation : String
  snapshotSha256 : String
  mappingSha256 : String
  eventId : String
  supportRef : String
  deriving DecidableEq

structure OccurrenceLookup where
  assemblyDocuments : List AssemblyDocument
  occurrences : List OccurrenceRow
  metadata : List (String × String)
  deriving DecidableEq

def createOccurrenceLookup : OccurrenceLookup := ⟨[], [], []⟩

/-- `document_id` is the primary key. -/
def OccurrenceLookup.insertDocument (lookup : OccurrenceLookup) (row : AssemblyDocument) :
    Result OccurrenceLookup := do
  throwIf (row.documentId ∈ lookup.assemblyDocuments.map (·.documentId))
    (.sqlite "UNIQUE constraint failed: assembly_documents.document_id")
  return { lookup with assemblyDocuments := lookup.assemblyDocuments ++ [row] }

def OccurrenceLookup.insertOccurrence (lookup : OccurrenceLookup) (row : OccurrenceRow) :
    OccurrenceLookup :=
  { lookup with occurrences := lookup.occurrences ++ [row] }

/-- Some document has another number of occurrences than it announces, or some
occurrence has no document. -/
def OccurrenceLookup.CountMismatch (lookup : OccurrenceLookup) : Prop :=
  (∃ row ∈ leftJoin lookup.assemblyDocuments (countBy (·.documentId) lookup.occurrences)
      (·.documentId) Prod.fst,
    row.1.expectedOccurrences ≠ (row.2.map Prod.snd).getD 0) ∨
  ∃ row ∈ leftJoin lookup.occurrences lookup.assemblyDocuments (·.documentId) (·.documentId),
    row.2.isNone

instance (lookup : OccurrenceLookup) : Decidable lookup.CountMismatch := by
  unfold OccurrenceLookup.CountMismatch
  infer_instance

def finalizeOccurrenceLookup (lookup : OccurrenceLookup) (total : ℕ) (source : SourceBinding) :
    Result OccurrenceLookup := do
  throwIf (¬ UniqueOn (·.occurrenceId) lookup.occurrences)
    (.sqlite "UNIQUE constraint failed: occurrences.occurrence_id")
  throwIf (¬ UniqueOn (·.eventId) lookup.occurrences)
    (.sqlite "UNIQUE constraint failed: occurrences.event_id")
  throwIf lookup.CountMismatch (.invalid "occurrence count closure")
  return {
    assemblyDocuments := []
    occurrences := lookup.occurrences
    metadata := [("schema", occurrenceLookupSchema), ("rows", toString total),
      ("snapshot_sha256", source.snapshotSha256), ("mapping_sha256", source.mappingSha256)] }

/-! ### Writing rows in batches -/

/-- The batches written, and the rows of the next one. -/
structure RowWriter (α : Type) where
  batches : List (List α)
  batch : List α

def RowWriter.empty {α : Type} : RowWriter α := ⟨[], []⟩

def RowWriter.push {α : Type} (writer : RowWriter α) (row : α) : RowWriter α :=
  if (writer.batch ++ [row]).length = parquetWriteBatchRows then
    ⟨writer.batches ++ [writer.batch ++ [row]], []⟩
  else ⟨writer.batches, writer.batch ++ [row]⟩

/-- The last batch is written when it has rows. -/
def RowWriter.close {α : Type} (writer : RowWriter α) : List (List α) :=
  if writer.batch = [] then writer.batches else writer.batches ++ [writer.batch]

/-! ### Documents -/

structure DocumentScan where
  lookup : OccurrenceLookup
  writer : RowWriter FastDocument
  orderMaterial : List UInt8
  previousId : Option String
  rows : ℕ
  totalTokenCount : Option ℕ
  documentFrequency : Option (SortedMap String ℕ)

structure DocumentWriteSummary where
  batches : List (List FastDocument)
  rows : ℕ
  orderSha256 : String
  totalTokenCount : Option ℕ
  documentFrequency : Option (SortedMap String ℕ)

/-- The token counts, where they are collected. -/
def addLexicalStats (totalTokenCount : Option ℕ) (documentFrequency : Option (SortedMap String ℕ))
    (document : FastDocument) : Result (Option ℕ × Option (SortedMap String ℕ)) :=
  match totalTokenCount, documentFrequency with
  | some total, some frequency => do
    let total ← orThrow (checkedAdd 64 total (tokenize document.semanticText).length)
      (.invalid "lexical token count")
    return (some total, some (addDocumentFrequency frequency document.semanticText))
  | total, frequency => .ok (total, frequency)

def writeDocument (scan : DocumentScan) (document : Result FastDocument) :
    Result DocumentScan := do
  let document ← document
  throwIf (document.documentId = "" ∨ '\x00' ∈ document.documentId.toList ∨
      document.occurrenceCount = 0 ∨ (document.vectorOrdinal : ℕ) ≠ scan.rows ∨
      ∃ previous ∈ scan.previousId, ¬ previous < document.documentId)
    (.invalid "document association")
  let expected ← orThrow (toI64 document.occurrenceCount) (.invalid "document occurrence count")
  let lookup ← scan.lookup.insertDocument ⟨document.documentId, expected⟩
  let stats ← addLexicalStats scan.totalTokenCount scan.documentFrequency document
  let rows ← orThrow (checkedAdd 64 scan.rows 1) (.invalid "document count")
  return {
    lookup := lookup
    writer := scan.writer.push document
    orderMaterial := scan.orderMaterial ++ documentOrderBytes document
    previousId := some document.documentId
    rows := rows
    totalTokenCount := stats.1
    documentFrequency := stats.2 }

def writeDocumentsStreaming (sha256 : List UInt8 → Pipeline.Digest)
    (documents : List (Result FastDocument)) (lookup : OccurrenceLookup)
    (collectLegacyLexicalStats : Bool) : Result (DocumentWriteSummary × OccurrenceLookup) := do
  let scan ← documents.foldlM writeDocument {
    lookup := lookup
    writer := .empty
    orderMaterial := []
    previousId := none
    rows := 0
    totalTokenCount := if collectLegacyLexicalStats then some 0 else none
    documentFrequency := if collectLegacyLexicalStats then some SortedMap.empty else none }
  throwIf (scan.rows = 0) (.invalid "output/documents")
  return (⟨scan.writer.close, scan.rows, (sha256 scan.orderMaterial).val, scan.totalTokenCount,
    scan.documentFrequency⟩, scan.lookup)

/-! ### Occurrences -/

structure OccurrenceScan where
  lookup : OccurrenceLookup
  writer : RowWriter FastOccurrence
  total : ℕ

def FastOccurrence.lookupRow (row : FastOccurrence) : OccurrenceRow where
  occurrenceId := row.occurrenceId
  documentId := row.documentId
  eventTimeMs := row.eventTimeMs.bind fun value => toI64 value
  relation := row.relation
  snapshotSha256 := row.snapshotSha256
  mappingSha256 := row.mappingSha256
  eventId := row.eventId
  supportRef := row.supportRef

def writeOccurrence (source : SourceBinding) (scan : OccurrenceScan)
    (row : Result FastOccurrence) : Result OccurrenceScan := do
  let row ← row
  throwIf (row.occurrenceId = "" ∨ row.eventId = "" ∨ row.supportRef = "" ∨
      row.snapshotSha256 ≠ source.snapshotSha256 ∨ row.mappingSha256 ≠ source.mappingSha256 ∨
      toI64 (row.eventTimeMs.getD 0 : U64) = none)
    (.invalid "occurrence source closure")
  let total ← orThrow (checkedAdd 64 scan.total 1) (.invalid "occurrence count")
  return ⟨scan.lookup.insertOccurrence row.lookupRow, scan.writer.push row, total⟩

def writeOccurrencesStreaming (occurrences : List (Result FastOccurrence))
    (source : SourceBinding) (lookup : OccurrenceLookup) :
    Result (List (List FastOccurrence) × ℕ × OccurrenceLookup) := do
  let scan ← occurrences.foldlM (writeOccurrence source) ⟨lookup, .empty, 0⟩
  return (scan.writer.close, scan.total, scan.lookup)

/-! ### Vectors -/

structure VectorScan where
  bytes : List UInt8
  count : ℕ

section Vectors

variable (unitNorm : List F32 → Bool)

def validateVectorValues (values : List F32) (dimensions : U32) (normalization : String) :
    Result Unit := do
  throwIf (values.length ≠ (dimensions : ℕ) ∨ ∃ value ∈ values, ¬ value.IsFinite)
    (.invalid "vector shape or finiteness")
  throwIf (normalization = "l2" ∧ ¬ unitNorm values) (.invalid "vector normalization")

def writeVector (dimensions : U32) (normalization : String) (scan : VectorScan)
    (vector : Result OrderedVector) : Result VectorScan := do
  let vector ← vector
  throwIf ((vector.vectorOrdinal : ℕ) ≠ scan.count) (.invalid "vector ordinal")
  validateVectorValues unitNorm vector.values dimensions normalization
  let count ← orThrow (checkedAdd 64 scan.count 1) (.invalid "vector count")
  return ⟨scan.bytes ++ vector.values.flatMap F32.toLeBytes, count⟩

/-- The magic text, the header size, the version, the kind of values, the count, the
dimensions and the digest of the document order. -/
def vectorHeader (count : ℕ) (dimensions : U32) (order : List UInt8) : List UInt8 :=
  Text.utf8 "LFRAGV1" ++ [0] ++ Bytes.toLeBytes 4 vectorHeaderBytes ++ Bytes.toLeBytes 2 1 ++
    [1, 0] ++ Bytes.toLeBytes 8 count ++ Bytes.toLeBytes 4 dimensions ++ Bytes.toLeBytes 4 0 ++
    order

def writeVectorsStreaming (vectors : List (Result OrderedVector)) (dimensions : U32)
    (orderSha256 normalization : String) : Result (List UInt8 × ℕ) := do
  let order ← decodeSha256 orderSha256
  let scan ← vectors.foldlM (writeVector unitNorm dimensions normalization)
    ⟨vectorHeader 0 dimensions order, 0⟩
  -- the count is written over the zero that stands for it
  return (scan.bytes.take 16 ++ Bytes.toLeBytes 8 scan.count ++ scan.bytes.drop 24, scan.count)

end Vectors

/-! ### The index -/

structure ObjectSummary where
  path : String
  rows : ℕ
  bytes : ℕ
  sha256 : String
  orderSha256 : Option String
  deriving DecidableEq

structure VectorSummary where
  path : String
  count : ℕ
  bytes : ℕ
  sha256 : String
  dimensions : U32
  dtype : String
  headerBytes : U32
  documentOrderSha256 : String
  deriving DecidableEq

/-- The parameters of the ranking are kept as the bits of their floats. -/
structure LexicalSummary where
  path : String
  documentCount : ℕ
  bytes : ℕ
  sha256 : String
  schema : Option String
  tokenizer : String
  k1 : U64
  b : U64
  deriving DecidableEq

structure OccurrenceLookupSummary where
  path : String
  rows : ℕ
  bytes : ℕ
  sha256 : String
  schema : String
  deriving DecidableEq

structure FastIndexManifest where
  schemaVersion : String
  componentSha256 : String
  source : SourceBinding
  buildScope : BuildScope
  complete : Bool
  documents : ObjectSummary
  occurrences : ObjectSummary
  vectors : VectorSummary
  lexical : LexicalSummary
  occurrenceLookup : OccurrenceLookupSummary
  embeddingProfile : EmbeddingProfile
  pipelineProvenance : Option PipelineProvenance
  testOnly : Bool
  deriving DecidableEq

instance : ToJson SourceBinding := ⟨fun source => .mkObject
  [("snapshot_sha256", toJson source.snapshotSha256),
    ("mapping_sha256", toJson source.mappingSha256)]⟩

instance : ToJson BuildScope := ⟨fun
  | .full => .string "full"
  | .sample => .string "sample"⟩

instance : ToJson ObjectSummary := ⟨fun summary => .mkObject
  [("path", toJson summary.path), ("rows", toJson summary.rows), ("bytes", toJson summary.bytes),
    ("sha256", toJson summary.sha256), ("order_sha256", toJson summary.orderSha256)]⟩

instance : ToJson VectorSummary := ⟨fun summary => .mkObject
  [("path", toJson summary.path), ("count", toJson summary.count),
    ("bytes", toJson summary.bytes), ("sha256", toJson summary.sha256),
    ("dimensions", toJson summary.dimensions), ("dtype", toJson summary.dtype),
    ("header_bytes", toJson summary.headerBytes),
    ("document_order_sha256", toJson summary.documentOrderSha256)]⟩

-- fields that are absent are not written
instance : ToJson LexicalSummary := ⟨fun summary => .mkObject <|
  [("path", toJson summary.path), ("document_count", toJson summary.documentCount),
    ("bytes", toJson summary.bytes), ("sha256", toJson summary.sha256)] ++
  (summary.schema.toList.map fun schema => ("schema", toJson schema)) ++
  [("tokenizer", toJson summary.tokenizer), ("k1", .number (.float summary.k1)),
    ("b", .number (.float summary.b))]⟩

instance : ToJson OccurrenceLookupSummary := ⟨fun summary => .mkObject
  [("path", toJson summary.path), ("rows", toJson summary.rows), ("bytes", toJson summary.bytes),
    ("sha256", toJson summary.sha256), ("schema", toJson summary.schema)]⟩

instance : ToJson VectorDerivation := ⟨fun derivation => .mkObject
  [("parent_embedding_profile_sha256", toJson derivation.parentEmbeddingProfileSha256),
    ("parent_dimensions", toJson derivation.parentDimensions),
    ("transformation", toJson derivation.transformation)]⟩

instance : ToJson EmbeddingProfile := ⟨fun profile => .mkObject <|
  [("id", toJson profile.id), ("version", toJson profile.version),
    ("sha256", toJson profile.sha256), ("model", toJson profile.model),
    ("dimensions", toJson profile.dimensions), ("normalization", toJson profile.normalization)] ++
  (profile.vectorDerivation.toList.map fun value => ("vector_derivation", toJson value)) ++
  (profile.queryInstruction.toList.map fun value => ("query_instruction", toJson value)) ++
  (profile.queryComposition.toList.map fun value => ("query_composition", toJson value))⟩

instance : ToJson PipelineProvenance := ⟨fun provenance => .mkObject
  [("dataset_sha256", toJson provenance.datasetSha256),
    ("prepared_corpus_sha256", toJson provenance.preparedCorpusSha256),
    ("embedding_plan_sha256", toJson provenance.embeddingPlanSha256),
    ("embedding_result_set_sha256", toJson provenance.embeddingResultSetSha256)]⟩

def manifestComponentSha256 (prims : Pipeline.Primitives) (manifest : FastIndexManifest) :
    String :=
  (Pipeline.canonicalDigest prims (.mkObject (
    [("schema_version", toJson manifest.schemaVersion), ("source", toJson manifest.source),
      ("build_scope", toJson manifest.buildScope), ("complete", toJson manifest.complete),
      ("documents", toJson manifest.documents), ("occurrences", toJson manifest.occurrences),
      ("vectors", toJson manifest.vectors), ("lexical", toJson manifest.lexical),
      ("occurrence_lookup", toJson manifest.occurrenceLookup),
      ("embedding_profile", toJson manifest.embeddingProfile)] ++
    (manifest.pipelineProvenance.toList.map fun value => ("pipeline_provenance", toJson value)) ++
    if manifest.testOnly then [("test_only", .bool true)] else []))).val

structure BuildReport where
  schemaVersion : String
  source : SourceBinding
  buildScope : BuildScope
  complete : Bool
  documentCount : ℕ
  occurrenceCount : ℕ
  vectorCount : ℕ
  embeddingProfileSha256 : String
  accounting : List (String × Json)
  cacheHits : ℕ
  embedded : ℕ
  testOnly : Bool

/-- The lexical file, in either format. -/
inductive LexicalFile where
  | json (content : LexicalJson)
  | sqlite (content : LexicalTables)

/-- The bytes that the row files and the databases are stored as. -/
structure Storage where
  documents : List (List FastDocument) → List UInt8
  occurrences : List (List FastOccurrence) → List UInt8
  lookup : OccurrenceLookup → List UInt8
  lexical : LexicalFile → List UInt8

/-- The files of an index. -/
structure FastIndex where
  manifest : FastIndexManifest
  documents : List (List FastDocument)
  occurrences : List (List FastOccurrence)
  vectors : List UInt8
  lexical : LexicalFile
  occurrenceLookup : OccurrenceLookup
  report : BuildReport

section Assemble

variable (prims : Pipeline.Primitives) (storage : Storage) (unitNorm : List F32 → Bool)

def writeLexical (format : LexicalFormat) (summary : DocumentWriteSummary) :
    Result LexicalFile :=
  -- the rows are read back from the file they were written to
  let documents := summary.batches.flatten.map .ok
  match format with
  | .jsonV2 => do
    let totalTokenCount ← orThrow summary.totalTokenCount (.invalid "legacy lexical token count")
    let documentFrequency ← orThrow summary.documentFrequency
      (.invalid "legacy lexical document frequency")
    let content ← writeLexicalFromDocuments documents summary.rows totalTokenCount
      documentFrequency
    return .json content
  | .sqliteV3 => do
    let content ← writeSqliteLexicalFromDocuments prims.sha256 documents summary.rows
      summary.orderSha256
    return .sqlite content

def describeIndex (options : IndexAssemblyOptions) (documents : DocumentWriteSummary)
    (occurrences : List (List FastOccurrence)) (occurrenceRows : ℕ) (lookup : OccurrenceLookup)
    (vectors : List UInt8) (vectorCount : ℕ) (lexical : LexicalFile) : FastIndex :=
  let digest (bytes : List UInt8) : String := (prims.sha256 bytes).val
  let sqlite : Bool := options.lexicalFormat = .sqliteV3
  let draft : FastIndexManifest := {
    schemaVersion := if options.testOnly then "livefire.rag.fast-index/4"
      else if sqlite then "livefire.rag.fast-index/3" else "livefire.rag.fast-index/2"
    componentSha256 := ""
    source := options.source
    buildScope := options.buildScope
    complete := options.buildScope = .full
    documents := ⟨"documents.parquet", documents.rows, (storage.documents documents.batches).length,
      digest (storage.documents documents.batches), some documents.orderSha256⟩
    occurrences := ⟨"occurrences.parquet", occurrenceRows, (storage.occurrences occurrences).length,
      digest (storage.occurrences occurrences), none⟩
    vectors := ⟨"vectors.f32", vectorCount, vectors.length, digest vectors,
      options.embeddingProfile.dimensions, "f32le", vectorHeaderBytes, documents.orderSha256⟩
    lexical := {
      path := if sqlite then "lexical/index.sqlite3" else "lexical/index.json"
      documentCount := documents.rows
      bytes := (storage.lexical lexical).length
      sha256 := digest (storage.lexical lexical)
      schema := if sqlite then some sqliteLexicalSchema else none
      tokenizer := "ascii_camel_lower_v1"
      k1 := 0x3FF3333333333333
      b := 0x3FE8000000000000 }
    occurrenceLookup := ⟨"occurrence-index.sqlite3", occurrenceRows, (storage.lookup lookup).length,
      digest (storage.lookup lookup), occurrenceLookupSchema⟩
    embeddingProfile := options.embeddingProfile
    pipelineProvenance := options.pipelineProvenance
    testOnly := options.testOnly }
  let manifest := { draft with componentSha256 := manifestComponentSha256 prims draft }
  { manifest := manifest
    documents := documents.batches
    occurrences := occurrences
    vectors := vectors
    lexical := lexical
    occurrenceLookup := lookup
    report := {
      schemaVersion := if options.testOnly then "livefire.rag.fast-build-report/2"
        else "livefire.rag.fast-build-report/1"
      source := manifest.source
      buildScope := manifest.buildScope
      complete := manifest.complete
      documentCount := documents.rows
      occurrenceCount := occurrenceRows
      vectorCount := vectorCount
      embeddingProfileSha256 := manifest.embeddingProfile.sha256
      accounting := [
        ("coverage_semantics", toJson "assembled_input_stream_only_not_source_row_coverage"),
        ("semantic_source_coverage_complete", toJson false),
        ("input_documents", toJson documents.rows), ("input_occurrences", toJson occurrenceRows),
        ("input_vectors", toJson vectorCount)]
      cacheHits := 0
      embedded := 0
      testOnly := options.testOnly } }

/-- What happens in the staging directory. -/
def assembleFastIndex (documents : List (Result FastDocument))
    (occurrences : List (Result FastOccurrence)) (vectors : List (Result OrderedVector))
    (options : IndexAssemblyOptions) : Result FastIndex := do
  let (summary, lookup) ← writeDocumentsStreaming prims.sha256 documents createOccurrenceLookup
    (options.lexicalFormat = .jsonV2)
  let (occurrenceBatches, occurrenceRows, lookup) ← writeOccurrencesStreaming occurrences
    options.source lookup
  let lookup ← finalizeOccurrenceLookup lookup occurrenceRows options.source
  let (vectorBytes, vectorCount) ← writeVectorsStreaming unitNorm vectors
    options.embeddingProfile.dimensions summary.orderSha256 options.embeddingProfile.normalization
  throwIf (vectorCount ≠ summary.rows) (.invalid "document/vector count")
  let lexical ← writeLexical prims options.lexicalFormat summary
  return describeIndex prims storage options summary occurrenceBatches occurrenceRows lookup
    vectorBytes vectorCount lexical

/-- What is at the path of the output, and whether the staging directory exists. -/
structure OutputDirectory where
  output : Option FastIndex
  staging : Bool

def writeFastIndexFromStreamsWithFormat (directory : OutputDirectory) (outputName : Option String)
    (documents : List (Result FastDocument)) (occurrences : List (Result FastOccurrence))
    (vectors : List (Result OrderedVector)) (options : IndexAssemblyOptions) :
    Result FastIndexManifest × OutputDirectory :=
  if directory.output.isSome then (.error (.invalid "output/documents"), directory)
  else match validateAssemblyIdentity options.source options.embeddingProfile with
    | .error e => (.error e, directory)
    | .ok _ =>
      if outputName = none then (.error (.invalid "output name"), directory)
      else if directory.staging then (.error (.invalid "staging exists"), directory)
      else match assembleFastIndex prims storage unitNorm documents occurrences vectors options with
        | .ok index => (.ok index.manifest, ⟨some index, false⟩)
        -- the staging directory is removed
        | .error e => (.error e, ⟨none, false⟩)

end Assemble

/-! ### What the writers accept -/

section RowWriter

variable {α : Type}

@[simp] theorem RowWriter.flatten_close (writer : RowWriter α) :
    writer.close.flatten = writer.batches.flatten ++ writer.batch := by
  unfold RowWriter.close
  split
  · next hempty => rw [hempty, List.append_nil]
  · rw [List.flatten_append, List.flatten_singleton]

theorem RowWriter.flatten_close_push (writer : RowWriter α) (row : α) :
    (writer.push row).close.flatten = writer.close.flatten ++ [row] := by
  rw [RowWriter.flatten_close, RowWriter.flatten_close, RowWriter.push]
  split
  · rw [List.flatten_append, List.flatten_singleton, List.append_nil, List.append_assoc]
  · rw [List.append_assoc]

/-- The writer that the rows have been pushed into. -/
def RowWriter.ofRows (rows : List α) : RowWriter α := rows.foldl RowWriter.push .empty

theorem RowWriter.ofRows_concat (rows : List α) (row : α) :
    RowWriter.ofRows (rows ++ [row]) = (RowWriter.ofRows rows).push row := by
  rw [RowWriter.ofRows, List.foldl_append]
  rfl

/-- The batches are the rows. -/
theorem RowWriter.flatten_close_ofRows (rows : List α) :
    (RowWriter.ofRows rows).close.flatten = rows := by
  induction rows using List.reverseRecOn with
  | nil => rfl
  | append_singleton rows row ih => rw [RowWriter.ofRows_concat, RowWriter.flatten_close_push, ih]

end RowWriter

def FastDocument.assemblyRow (document : FastDocument) : AssemblyDocument :=
  ⟨document.documentId, document.occurrenceCount⟩

/-- The state after the documents. -/
def describedDocumentScan (collect : Bool) (documents : List FastDocument) : DocumentScan where
  lookup := ⟨documents.map FastDocument.assemblyRow, [], []⟩
  writer := .ofRows documents
  orderMaterial := documents.flatMap documentOrderBytes
  previousId := documents.getLast?.map (·.documentId)
  rows := documents.length
  totalTokenCount :=
    if collect then some (documents.map fun document => document.tokens.length).sum else none
  documentFrequency :=
    if collect then some (documents.foldl (fun frequency document =>
      addDocumentFrequency frequency document.semanticText) SortedMap.empty) else none

/-- What is asked of a document after those before it. -/
structure DocumentStep (collect : Bool) (before : List FastDocument) (document : FastDocument) :
    Prop where
  id_ne : document.documentId ≠ ""
  id_text : '\x00' ∉ document.documentId.toList
  count_ne : document.occurrenceCount ≠ 0
  ordinal : (document.vectorOrdinal : ℕ) = before.length
  ascending : ∀ last ∈ before.getLast?, last.documentId < document.documentId
  count_lt : (document.occurrenceCount : ℕ) < 2 ^ 63
  rows_lt : before.length + 1 < 2 ^ 64
  total_lt : collect = true →
    (before.map fun document => document.tokens.length).sum + document.tokens.length < 2 ^ 64

theorem addLexicalStats_described {collect : Bool} {before : List FastDocument}
    {document : FastDocument} {stats : Option ℕ × Option (SortedMap String ℕ)} :
    addLexicalStats (describedDocumentScan collect before).totalTokenCount
        (describedDocumentScan collect before).documentFrequency document = .ok stats ↔
      (collect = true →
        (before.map fun document => document.tokens.length).sum + document.tokens.length <
          2 ^ 64) ∧
      stats = ((describedDocumentScan collect (before ++ [document])).totalTokenCount,
        (describedDocumentScan collect (before ++ [document])).documentFrequency) := by
  cases collect with
  | false =>
    show Except.ok (none, none) = _ ↔ _
    simp [describedDocumentScan, eq_comm]
  | true =>
    have htotal : ((before ++ [document]).map fun document => document.tokens.length).sum =
        (before.map fun document => document.tokens.length).sum + document.tokens.length := by
      simp
    simp only [describedDocumentScan, if_true, addLexicalStats, bind_eq_ok, orThrow_eq_ok,
      checkedAdd_eq_some, pure_eq_ok, htotal, List.foldl_append, List.foldl_cons, List.foldl_nil,
      true_imp_iff]
    constructor
    · rintro ⟨_, ⟨hlt, rfl⟩, rfl⟩
      exact ⟨hlt, rfl⟩
    · rintro ⟨hlt, rfl⟩
      exact ⟨_, ⟨hlt, rfl⟩, rfl⟩

theorem admitted_ascending_ids_iff {documents : List FastDocument} :
    Admitted (fun before document => ∀ last ∈ before.getLast?,
      last.documentId < document.documentId) documents ↔
      documents.Pairwise fun a b => a.documentId < b.documentId :=
  admitted_ascending_iff (r := fun a b : FastDocument => a.documentId < b.documentId)
    fun _ _ _ => lt_trans

theorem writeDocument_eq_ok {collect : Bool} {before : List FastDocument}
    {document : FastDocument} {scan : DocumentScan}
    (hbefore : Admitted (DocumentStep collect) before) :
    writeDocument (describedDocumentScan collect before) (.ok document) = .ok scan ↔
      DocumentStep collect before document ∧
      scan = describedDocumentScan collect (before ++ [document]) := by
  have hprevious : (¬ ∃ previous ∈ (describedDocumentScan collect before).previousId,
      ¬ previous < document.documentId) ↔
      ∀ last ∈ before.getLast?, last.documentId < document.documentId := by
    simp [describedDocumentScan]
  -- ids that ascend do not meet
  have hfresh : (∀ last ∈ before.getLast?, last.documentId < document.documentId) →
      document.documentId ∉ (before.map FastDocument.assemblyRow).map (·.documentId) := by
    intro hascending hmem
    rw [List.map_map, List.mem_map] at hmem
    obtain ⟨earlier, hearlier, heq⟩ := hmem
    have hpairwise : (before ++ [document]).Pairwise fun a b => a.documentId < b.documentId := by
      refine admitted_ascending_ids_iff.mp (admitted_concat_iff.mpr ⟨?_, hascending⟩)
      exact fun pre x post hsplit => (hbefore pre x post hsplit).ascending
    rw [List.pairwise_append] at hpairwise
    exact (hpairwise.2.2 earlier hearlier document (List.mem_singleton_self _)).ne heq
  have hscan : ∀ stats : Option ℕ × Option (SortedMap String ℕ),
      stats = ((describedDocumentScan collect (before ++ [document])).totalTokenCount,
        (describedDocumentScan collect (before ++ [document])).documentFrequency) →
      (⟨⟨before.map FastDocument.assemblyRow ++ [document.assemblyRow], [], []⟩,
        (RowWriter.ofRows before).push document,
        before.flatMap documentOrderBytes ++ documentOrderBytes document,
        some document.documentId, before.length + 1, stats.1, stats.2⟩ : DocumentScan) =
      describedDocumentScan collect (before ++ [document]) := by
    rintro _ rfl
    simp [describedDocumentScan, RowWriter.ofRows_concat]
  simp only [writeDocument, ok_bind, bind_eq_ok, exists_unit, throwIf_eq_ok, not_or, not_not,
    orThrow_eq_ok, toI64_eq_some, checkedAdd_eq_some, pure_eq_ok,
    OccurrenceLookup.insertDocument, addLexicalStats_described, hprevious]
  constructor
  · rintro ⟨⟨hid, htext, hcount, hordinal, hascending⟩, _, ⟨hlt, rfl⟩, _, ⟨-, rfl⟩, stats,
      ⟨htotal, hstats⟩, _, ⟨hrows, rfl⟩, rfl⟩
    exact ⟨⟨hid, htext, hcount, hordinal, hascending, hlt, hrows, htotal⟩, hscan stats hstats⟩
  · rintro ⟨h, rfl⟩
    exact ⟨⟨h.id_ne, h.id_text, h.count_ne, h.ordinal, h.ascending⟩, _, ⟨h.count_lt, rfl⟩, _,
      ⟨hfresh h.ascending, rfl⟩, _, ⟨h.total_lt, rfl⟩, _, ⟨h.rows_lt, rfl⟩, hscan _ rfl⟩

/-- What the writer of the documents asks of all of them. -/
structure DocumentsAccepted (collect : Bool) (documents : List FastDocument) : Prop where
  ne_nil : documents ≠ []
  ids_ne : ∀ document ∈ documents, document.documentId ≠ "" ∧
    '\x00' ∉ document.documentId.toList
  ascending : documents.Pairwise fun a b => a.documentId < b.documentId
  ordinals : ∀ i document, documents[i]? = some document → (document.vectorOrdinal : ℕ) = i
  counts : ∀ document ∈ documents, document.occurrenceCount ≠ 0 ∧
    (document.occurrenceCount : ℕ) < 2 ^ 63
  length_lt : documents.length < 2 ^ 64
  total_lt : collect = true →
    (documents.map fun document => document.tokens.length).sum < 2 ^ 64

theorem admitted_documentStep_iff {collect : Bool} {documents : List FastDocument}
    (hne : documents ≠ []) :
    Admitted (DocumentStep collect) documents ↔ DocumentsAccepted collect documents := by
  constructor
  · intro h
    refine ⟨hne, ?_, ?_, ?_, ?_, ?_, fun hcollect => ?_⟩
    · exact admitted_forall_iff.mp fun pre x post hsplit =>
        ⟨(h pre x post hsplit).id_ne, (h pre x post hsplit).id_text⟩
    · exact admitted_ascending_ids_iff.mp fun pre x post hsplit => (h pre x post hsplit).ascending
    · exact admitted_position_iff.mp fun pre x post hsplit => (h pre x post hsplit).ordinal
    · exact admitted_forall_iff.mp fun pre x post hsplit =>
        ⟨(h pre x post hsplit).count_ne, (h pre x post hsplit).count_lt⟩
    · exact (admitted_length_iff (by decide)).mp fun pre x post hsplit =>
        (h pre x post hsplit).rows_lt
    · exact (admitted_total_iff (by decide)).mp fun pre x post hsplit =>
        (h pre x post hsplit).total_lt hcollect
  · intro h before document after hsplit
    have hmem : document ∈ documents :=
      hsplit ▸ List.mem_append_right _ (List.mem_cons_self ..)
    exact ⟨(h.ids_ne document hmem).1, (h.ids_ne document hmem).2, (h.counts document hmem).1,
      admitted_position_iff.mpr h.ordinals before document after hsplit,
      admitted_ascending_ids_iff.mpr h.ascending before document after hsplit,
      (h.counts document hmem).2,
      (admitted_length_iff (by decide)).mpr h.length_lt before document after hsplit,
      fun hcollect =>
        (admitted_total_iff (by decide)).mpr (h.total_lt hcollect) before document after hsplit⟩

/-- What the writer of the documents returns. -/
def describedSummary (sha256 : List UInt8 → Pipeline.Digest) (collect : Bool)
    (documents : List FastDocument) : DocumentWriteSummary :=
  ⟨(RowWriter.ofRows documents).close, documents.length,
    (sha256 (documents.flatMap documentOrderBytes)).val,
    (describedDocumentScan collect documents).totalTokenCount,
    (describedDocumentScan collect documents).documentFrequency⟩

theorem writeDocumentsStreaming_eq_ok {sha256 : List UInt8 → Pipeline.Digest}
    {stream : List (Result FastDocument)} {collect : Bool}
    {written : DocumentWriteSummary × OccurrenceLookup} :
    writeDocumentsStreaming sha256 stream createOccurrenceLookup collect = .ok written ↔
      ∃ documents, stream = documents.map .ok ∧ DocumentsAccepted collect documents ∧
        written = (describedSummary sha256 collect documents,
          ⟨documents.map FastDocument.assemblyRow, [], []⟩) := by
  have hrule : ∀ scan, stream.foldlM writeDocument (describedDocumentScan collect []) = .ok scan ↔
      ∃ documents : List FastDocument, stream = documents.map .ok ∧
        Admitted (DocumentStep collect) documents ∧
        scan = describedDocumentScan collect documents := fun scan =>
    foldlM_stream_eq_ok (fun _ _ => rfl) fun _ _ _ hpre => writeDocument_eq_ok hpre
  have hstart : (describedDocumentScan collect []) = {
      lookup := createOccurrenceLookup
      writer := .empty
      orderMaterial := []
      previousId := none
      rows := 0
      totalTokenCount := if collect then some 0 else none
      documentFrequency := if collect then some SortedMap.empty else none } := rfl
  rw [hstart] at hrule
  simp only [writeDocumentsStreaming, bind_eq_ok, hrule, exists_unit, throwIf_eq_ok, pure_eq_ok]
  constructor
  · rintro ⟨_, ⟨documents, hstream, hadmitted, rfl⟩, hrows, rfl⟩
    have hne : documents ≠ [] := fun hnil => hrows (List.length_eq_zero_iff.mpr hnil)
    exact ⟨documents, hstream, (admitted_documentStep_iff hne).mp hadmitted, rfl⟩
  · rintro ⟨documents, hstream, haccepted, rfl⟩
    refine ⟨_, ⟨documents, hstream, (admitted_documentStep_iff haccepted.ne_nil).mpr haccepted,
      rfl⟩, fun hrows => ?_, rfl⟩
    exact haccepted.ne_nil (List.length_eq_zero_iff.mp hrows)

/-! ### Occurrences -/

/-- The state after the occurrences. -/
def describedOccurrenceScan (lookup : OccurrenceLookup) (occurrences : List FastOccurrence) :
    OccurrenceScan where
  lookup := { lookup with
    occurrences := lookup.occurrences ++ occurrences.map FastOccurrence.lookupRow }
  writer := .ofRows occurrences
  total := occurrences.length

/-- What is asked of an occurrence on its own. -/
structure OccurrenceAccepted (source : SourceBinding) (row : FastOccurrence) : Prop where
  texts : row.occurrenceId ≠ "" ∧ row.eventId ≠ "" ∧ row.supportRef ≠ ""
  snapshot : row.snapshotSha256 = source.snapshotSha256
  mapping : row.mappingSha256 = source.mappingSha256
  time_lt : ∀ time ∈ row.eventTimeMs, (time : ℕ) < 2 ^ 63

theorem toI64_getD_ne_none {time : Option U64} :
    toI64 (time.getD 0 : U64) ≠ none ↔ ∀ value ∈ time, (value : ℕ) < 2 ^ 63 := by
  cases time with
  | none => simp [toI64]
  | some value => simp [toI64]

theorem writeOccurrence_eq_ok {source : SourceBinding} {lookup : OccurrenceLookup}
    {before : List FastOccurrence} {row : FastOccurrence} {scan : OccurrenceScan} :
    writeOccurrence source (describedOccurrenceScan lookup before) (.ok row) = .ok scan ↔
      (OccurrenceAccepted source row ∧ before.length + 1 < 2 ^ 64) ∧
      scan = describedOccurrenceScan lookup (before ++ [row]) := by
  have hscan : (⟨(describedOccurrenceScan lookup before).lookup.insertOccurrence row.lookupRow,
      (RowWriter.ofRows before).push row, before.length + 1⟩ : OccurrenceScan) =
      describedOccurrenceScan lookup (before ++ [row]) := by
    simp [describedOccurrenceScan, OccurrenceLookup.insertOccurrence, RowWriter.ofRows_concat]
  simp only [writeOccurrence, ok_bind, bind_eq_ok, exists_unit, throwIf_eq_ok, not_or, not_not,
    orThrow_eq_ok, checkedAdd_eq_some, pure_eq_ok, ← ne_eq, toI64_getD_ne_none]
  constructor
  · rintro ⟨⟨hid, hevent, hsupport, hsnapshot, hmapping, htime⟩, _, ⟨hrows, rfl⟩, rfl⟩
    exact ⟨⟨⟨⟨hid, hevent, hsupport⟩, hsnapshot, hmapping, htime⟩, hrows⟩, hscan⟩
  · rintro ⟨⟨⟨⟨hid, hevent, hsupport⟩, hsnapshot, hmapping, htime⟩, hrows⟩, rfl⟩
    exact ⟨⟨hid, hevent, hsupport, hsnapshot, hmapping, htime⟩, _, ⟨hrows, rfl⟩, hscan⟩

theorem writeOccurrencesStreaming_eq_ok {stream : List (Result FastOccurrence)}
    {source : SourceBinding} {lookup : OccurrenceLookup}
    {written : List (List FastOccurrence) × ℕ × OccurrenceLookup} :
    writeOccurrencesStreaming stream source lookup = .ok written ↔
      ∃ occurrences, stream = occurrences.map .ok ∧
        (∀ row ∈ occurrences, OccurrenceAccepted source row) ∧ occurrences.length < 2 ^ 64 ∧
        written = ((RowWriter.ofRows occurrences).close, occurrences.length,
          (describedOccurrenceScan lookup occurrences).lookup) := by
  have hrule : ∀ scan, stream.foldlM (writeOccurrence source) (describedOccurrenceScan lookup []) =
      .ok scan ↔ ∃ occurrences : List FastOccurrence, stream = occurrences.map .ok ∧
        Admitted (fun before row => OccurrenceAccepted source row ∧ before.length + 1 < 2 ^ 64)
          occurrences ∧ scan = describedOccurrenceScan lookup occurrences := fun scan =>
    foldlM_stream_eq_ok (fun _ _ => rfl) fun _ _ _ _ => writeOccurrence_eq_ok
  have hstart : describedOccurrenceScan lookup [] = ⟨lookup, .empty, 0⟩ := by
    simp [describedOccurrenceScan, RowWriter.ofRows]
  rw [hstart] at hrule
  simp only [writeOccurrencesStreaming, bind_eq_ok, hrule, pure_eq_ok, admitted_and_iff,
    admitted_forall_iff, admitted_length_iff (Nat.two_pow_pos 64)]
  constructor
  · rintro ⟨_, ⟨occurrences, hstream, ⟨haccepted, hlength⟩, rfl⟩, rfl⟩
    exact ⟨occurrences, hstream, haccepted, hlength, rfl⟩
  · rintro ⟨occurrences, hstream, haccepted, hlength, rfl⟩
    exact ⟨_, ⟨occurrences, hstream, ⟨haccepted, hlength⟩, rfl⟩, rfl⟩

/-- The closure of the occurrences over the documents. -/
structure OccurrencesClosed (documents : List FastDocument) (occurrences : List FastOccurrence) :
    Prop where
  occurrence_ids : (occurrences.map (·.occurrenceId)).Nodup
  event_ids : (occurrences.map (·.eventId)).Nodup
  counts : ∀ document ∈ documents,
    occurrences.countP (fun row => row.documentId = document.documentId) = document.occurrenceCount
  belongs : ∀ row ∈ occurrences, ∃ document ∈ documents, document.documentId = row.documentId

theorem not_countMismatch_iff {documents : List FastDocument} {occurrences : List FastOccurrence}
    {metadata : List (String × String)} :
    ¬ (⟨documents.map FastDocument.assemblyRow, occurrences.map FastOccurrence.lookupRow,
        metadata⟩ : OccurrenceLookup).CountMismatch ↔
      (∀ document ∈ documents,
        occurrences.countP (fun row => row.documentId = document.documentId) =
          document.occurrenceCount) ∧
      ∀ row ∈ occurrences, ∃ document ∈ documents, document.documentId = row.documentId := by
  have hcount : ∀ documentId, (occurrences.map FastOccurrence.lookupRow).countP
      (fun row => row.documentId = documentId) =
      occurrences.countP fun row => row.documentId = documentId := by
    intro documentId
    rw [List.countP_map]
    rfl
  rw [OccurrenceLookup.CountMismatch, exists_mem_leftJoin_countBy_iff
    (p := fun (document : AssemblyDocument) count => document.expectedOccurrences ≠ count),
    exists_unmatched_iff, not_or]
  refine and_congr ?_ ?_
  · push Not
    simp only [List.forall_mem_map, hcount]
    exact forall₂_congr fun document _ => eq_comm
  · push Not
    simp only [List.forall_mem_map]
    refine forall₂_congr fun row _ => ?_
    simp only [List.mem_map, exists_exists_and_eq_and]
    rfl

theorem finalizeOccurrenceLookup_eq_ok {documents : List FastDocument}
    {occurrences : List FastOccurrence} {total : ℕ} {source : SourceBinding}
    {finalized : OccurrenceLookup} :
    finalizeOccurrenceLookup (describedOccurrenceScan
        ⟨documents.map FastDocument.assemblyRow, [], []⟩ occurrences).lookup total source =
          .ok finalized ↔
      OccurrencesClosed documents occurrences ∧
      finalized = ⟨[], occurrences.map FastOccurrence.lookupRow,
        [("schema", occurrenceLookupSchema), ("rows", toString total),
          ("snapshot_sha256", source.snapshotSha256),
          ("mapping_sha256", source.mappingSha256)]⟩ := by
  have hids : (occurrences.map FastOccurrence.lookupRow).map (·.occurrenceId) =
      occurrences.map (·.occurrenceId) := List.map_map ..
  have hevents : (occurrences.map FastOccurrence.lookupRow).map (·.eventId) =
      occurrences.map (·.eventId) := List.map_map ..
  have hlookup : (describedOccurrenceScan ⟨documents.map FastDocument.assemblyRow, [], []⟩
      occurrences).lookup = ⟨documents.map FastDocument.assemblyRow,
        occurrences.map FastOccurrence.lookupRow, []⟩ := rfl
  rw [hlookup]
  simp only [finalizeOccurrenceLookup, UniqueOn, hids, hevents, bind_eq_ok, exists_unit,
    throwIf_eq_ok, not_not, not_countMismatch_iff, pure_eq_ok]
  constructor
  · rintro ⟨hoccurrenceIds, heventIds, ⟨hcounts, hbelongs⟩, rfl⟩
    exact ⟨⟨hoccurrenceIds, heventIds, hcounts, hbelongs⟩, rfl⟩
  · rintro ⟨h, rfl⟩
    exact ⟨h.occurrence_ids, h.event_ids, ⟨h.counts, h.belongs⟩, rfl⟩

/-! ### Vectors -/

/-- What is asked of a vector on its own. -/
structure VectorAccepted (unitNorm : List F32 → Bool) (dimensions : U32) (normalization : String)
    (vector : OrderedVector) : Prop where
  length : vector.values.length = (dimensions : ℕ)
  finite : ∀ value ∈ vector.values, value.IsFinite
  unit : normalization = "l2" → unitNorm vector.values = true

theorem validateVectorValues_eq_ok {unitNorm : List F32 → Bool} {dimensions : U32}
    {normalization : String} {vector : OrderedVector} {u : Unit} :
    validateVectorValues unitNorm vector.values dimensions normalization = .ok u ↔
      VectorAccepted unitNorm dimensions normalization vector := by
  simp only [validateVectorValues, bind_eq_ok, exists_unit, throwIf_eq_ok, not_or, not_not,
    not_exists, not_and]
  constructor
  · rintro ⟨⟨hlength, hfinite⟩, hunit⟩
    exact ⟨hlength, hfinite, hunit⟩
  · rintro ⟨hlength, hfinite, hunit⟩
    exact ⟨⟨hlength, hfinite⟩, hunit⟩

/-- The state after the vectors. -/
def describedVectorScan (header : List UInt8) (vectors : List OrderedVector) : VectorScan where
  bytes := header ++ vectors.flatMap fun vector => vector.values.flatMap F32.toLeBytes
  count := vectors.length

/-- What is asked of a vector after those before it. -/
structure VectorStep (unitNorm : List F32 → Bool) (dimensions : U32) (normalization : String)
    (before : List OrderedVector) (vector : OrderedVector) : Prop where
  ordinal : (vector.vectorOrdinal : ℕ) = before.length
  accepted : VectorAccepted unitNorm dimensions normalization vector
  count_lt : before.length + 1 < 2 ^ 64

section Vectors

variable {unitNorm : List F32 → Bool} {dimensions : U32} {normalization : String}

theorem writeVector_eq_ok {header : List UInt8} {before : List OrderedVector}
    {vector : OrderedVector} {scan : VectorScan} :
    writeVector unitNorm dimensions normalization (describedVectorScan header before)
        (.ok vector) = .ok scan ↔
      VectorStep unitNorm dimensions normalization before vector ∧
      scan = describedVectorScan header (before ++ [vector]) := by
  have hscan : (⟨(describedVectorScan header before).bytes ++
      vector.values.flatMap F32.toLeBytes, before.length + 1⟩ : VectorScan) =
      describedVectorScan header (before ++ [vector]) := by
    simp [describedVectorScan]
  simp only [writeVector, ok_bind, bind_eq_ok, exists_unit, throwIf_eq_ok, not_not,
    validateVectorValues_eq_ok, orThrow_eq_ok, checkedAdd_eq_some, pure_eq_ok]
  constructor
  · rintro ⟨hordinal, haccepted, _, ⟨hcount, rfl⟩, rfl⟩
    exact ⟨⟨hordinal, haccepted, hcount⟩, hscan⟩
  · rintro ⟨⟨hordinal, haccepted, hcount⟩, rfl⟩
    exact ⟨hordinal, haccepted, _, ⟨hcount, rfl⟩, hscan⟩

/-- What the writer of the vectors asks of all of them. -/
structure VectorsAccepted (unitNorm : List F32 → Bool) (dimensions : U32) (normalization : String)
    (vectors : List OrderedVector) : Prop where
  ordinals : ∀ i vector, vectors[i]? = some vector → (vector.vectorOrdinal : ℕ) = i
  accepted : ∀ vector ∈ vectors, VectorAccepted unitNorm dimensions normalization vector
  length_lt : vectors.length < 2 ^ 64

theorem admitted_vectorStep_iff {vectors : List OrderedVector} :
    Admitted (VectorStep unitNorm dimensions normalization) vectors ↔
      VectorsAccepted unitNorm dimensions normalization vectors := by
  constructor
  · intro h
    exact ⟨admitted_position_iff.mp fun pre x post hsplit => (h pre x post hsplit).ordinal,
      admitted_forall_iff.mp fun pre x post hsplit => (h pre x post hsplit).accepted,
      (admitted_length_iff (by decide)).mp fun pre x post hsplit => (h pre x post hsplit).count_lt⟩
  · intro h before vector after hsplit
    exact ⟨admitted_position_iff.mpr h.ordinals before vector after hsplit,
      admitted_forall_iff.mpr h.accepted before vector after hsplit,
      (admitted_length_iff (by decide)).mpr h.length_lt before vector after hsplit⟩

/-! ### Digests that are read back -/

/-- A digest as it is written is read back. -/
theorem exists_decodeSha256 (digest : Pipeline.Digest) :
    ∃ bytes, decodeSha256 digest.val = .ok bytes := by
  obtain ⟨hlength, hhex⟩ := digest.property
  have hsize := digest.utf8ByteSize_eq
  have hbytes := Text.utf8_of_ascii digest.ascii
  have hbyte : ∀ i < 64, ∃ byte, (Text.utf8 digest.val)[i]? = some byte ∧ byte ≠ 43 ∧
      byte < 128 ∧ ∃ value, hexDigitValue byte = some value := by
    intro i hi
    rw [← hlength] at hi
    have hrange := Pipeline.toNat_of_isHexDigit (hhex _ (List.getElem_mem hi))
    refine ⟨UInt8.ofNat digest.val.toList[i].toNat, ?_, ?_⟩
    · rw [hbytes, List.getElem?_map, List.getElem?_eq_getElem hi]
      rfl
    · generalize digest.val.toList[i].toNat = n at hrange
      have hall : ∀ n < 103, 48 ≤ n ∧ n ≤ 57 ∨ 97 ≤ n ∧ n ≤ 102 → UInt8.ofNat n ≠ 43 ∧
          UInt8.ofNat n < 128 ∧ (hexDigitValue (UInt8.ofNat n)).isSome := by decide +kernel
      obtain ⟨hsign, hlt, hvalue⟩ := hall n (by omega) hrange
      exact ⟨hsign, hlt, Option.isSome_iff_exists.mp hvalue⟩
  have hboundary : ∀ offset, IsCharBoundary (Text.utf8 digest.val) offset := by
    rintro offset byte hmem ⟨hlow, -⟩
    have hoffset : offset < 64 := by
      have hlt := (List.getElem?_eq_some_iff.mp hmem).1
      rwa [hbytes, List.length_map, hlength] at hlt
    obtain ⟨byte', hbyte', -, hlt, -⟩ := hbyte offset hoffset
    obtain rfl := Option.some.inj (hmem.symm.trans hbyte')
    exact absurd hlow (UInt8.not_le.mpr hlt)
  simp only [decodeSha256, bind_eq_ok, exists_unit, throwIf_eq_ok, not_not]
  have hdecoded : ∀ i ∈ List.range 32, ∃ byte, decodeSha256Byte (Text.utf8 digest.val) i =
      .ok byte := by
    intro i hi
    rw [List.mem_range] at hi
    obtain ⟨high, hhigh, hsign, -, h, hh⟩ := hbyte (2 * i) (by omega)
    obtain ⟨low, hlow, -, -, l, hl⟩ := hbyte (2 * i + 1) (by omega)
    have hpair : hexPairValue high low = some (16 * h + l) := by
      rw [hexPairValue, if_neg hsign, hh, hl]
      rfl
    simp only [decodeSha256Byte, bind_eq_ok, exists_unit, throwIf_eq_ok, not_or, not_not,
      orThrow_eq_ok, pure_eq_ok]
    exact ⟨_, ⟨hboundary _, hboundary _⟩, high, hhigh, low, hlow, _, hpair, rfl⟩
  obtain ⟨bytes, hrun⟩ := exists_mapM_eq_ok.mpr hdecoded
  exact ⟨bytes, hsize, hrun⟩

theorem exists_writeVectorsStreaming {stream : List (Result OrderedVector)}
    {digest : Pipeline.Digest} {count : ℕ} :
    (∃ bytes, writeVectorsStreaming unitNorm stream dimensions digest.val normalization =
        .ok (bytes, count)) ↔
      ∃ vectors, stream = vectors.map .ok ∧
        VectorsAccepted unitNorm dimensions normalization vectors ∧ count = vectors.length := by
  obtain ⟨order, horder⟩ := exists_decodeSha256 digest
  have hrule : ∀ scan, stream.foldlM (writeVector unitNorm dimensions normalization)
      (describedVectorScan (vectorHeader 0 dimensions order) []) = .ok scan ↔
      ∃ vectors : List OrderedVector, stream = vectors.map .ok ∧
        Admitted (VectorStep unitNorm dimensions normalization) vectors ∧
        scan = describedVectorScan (vectorHeader 0 dimensions order) vectors := fun scan =>
    foldlM_stream_eq_ok (fun _ _ => rfl) fun _ _ _ _ => writeVector_eq_ok
  have hstart : describedVectorScan (vectorHeader 0 dimensions order) [] =
      ⟨vectorHeader 0 dimensions order, 0⟩ := by
    simp [describedVectorScan]
  rw [hstart] at hrule
  simp only [writeVectorsStreaming, horder, ok_bind, bind_eq_ok, hrule, pure_eq_ok,
    admitted_vectorStep_iff, Prod.mk.injEq]
  constructor
  · rintro ⟨_, _, ⟨vectors, hstream, haccepted, rfl⟩, -, rfl⟩
    exact ⟨vectors, hstream, haccepted, rfl⟩
  · rintro ⟨vectors, hstream, haccepted, rfl⟩
    exact ⟨_, _, ⟨vectors, hstream, haccepted, rfl⟩, rfl, rfl⟩

end Vectors

/-! ### The lexical file -/

/-- The counters of the lexical file take the terms of the documents. -/
def LexicalFits (format : LexicalFormat) (documents : List FastDocument) : Prop :=
  (documents.map fun document => document.tokens.length).sum < 2 ^ 64 ∧
    (format = .sqliteV3 → documents.length ≤ 2 ^ 63 ∧
      ∀ document ∈ documents, document.tokens.length < 2 ^ 63)

theorem exists_writeLexical {prims : Pipeline.Primitives} {format : LexicalFormat}
    {documents : List FastDocument}
    (h : DocumentsAccepted (decide (format = .jsonV2)) documents) :
    (∃ file, writeLexical prims format
        (describedSummary prims.sha256 (decide (format = .jsonV2)) documents) = .ok file) ↔
      LexicalFits format documents := by
  have hrows : (describedSummary prims.sha256 (decide (format = .jsonV2))
      documents).batches.flatten = documents := RowWriter.flatten_close_ofRows documents
  cases format with
  | jsonV2 =>
    have htotal := h.total_lt (decide_eq_true rfl)
    refine iff_of_true ?_ ⟨htotal, fun hformat => by cases hformat⟩
    have hrun := writeLexicalFromDocuments_eq documents documents.length
      (documents.map fun document => document.tokens.length).sum
      (documents.foldl (fun frequency document =>
        addDocumentFrequency frequency document.semanticText) SortedMap.empty)
    rw [writeLexical, hrows]
    exact ⟨_, bind_eq_ok.mpr ⟨_, rfl, bind_eq_ok.mpr ⟨_, rfl, bind_eq_ok.mpr ⟨_, hrun, rfl⟩⟩⟩⟩
  | sqliteV3 =>
    have hwritable : LexicallyWritable documents ↔ LexicalFits .sqliteV3 documents := by
      constructor
      · intro hwritable
        exact ⟨hwritable.total, fun _ => ⟨hwritable.count_le, hwritable.lengths⟩⟩
      · rintro ⟨htotal, hrest⟩
        obtain ⟨hcount, hlengths⟩ := hrest rfl
        have hids : (documents.map (·.documentId)).Nodup := by
          rw [List.nodup_iff_pairwise_ne, List.pairwise_map]
          exact h.ascending.imp fun hlt => hlt.ne
        exact ⟨h.ordinals, hids, hcount, hlengths, htotal⟩
    have hiff := @writeSqliteLexicalFromDocuments_ok_iff prims.sha256 documents
    rw [← hwritable, ← hiff, writeLexical, hrows]
    constructor
    · rintro ⟨file, hfile⟩
      obtain ⟨content, hcontent, -⟩ := bind_eq_ok.mp hfile
      exact ⟨content, hcontent⟩
    · rintro ⟨content, hcontent⟩
      exact ⟨.sqlite content, bind_eq_ok.mpr ⟨content, hcontent, rfl⟩⟩

/-! ### Which streams are accepted -/

/-- The closure of documents, occurrences and vectors. -/
structure Closed (documents : List FastDocument) (occurrences : List FastOccurrence)
    (vectors : List OrderedVector) : Prop where
  ascending : documents.Pairwise fun a b => a.documentId < b.documentId
  ordinals : ∀ i document, documents[i]? = some document → (document.vectorOrdinal : ℕ) = i
  vector_count : vectors.length = documents.length
  occurrences_closed : OccurrencesClosed documents occurrences
  counts_pos : ∀ document ∈ documents, 1 ≤ (document.occurrenceCount : ℕ)

/-- What the writers ask of single rows and of their counters: there are documents,
their ids are texts without zero characters, the ids and references of an occurrence are
not empty and its time is a signed number, and nothing overflows. -/
structure Admissible (format : LexicalFormat) (documents : List FastDocument)
    (occurrences : List FastOccurrence) : Prop where
  ne_nil : documents ≠ []
  ids_ne : ∀ document ∈ documents, document.documentId ≠ "" ∧
    '\x00' ∉ document.documentId.toList
  texts : ∀ row ∈ occurrences, row.occurrenceId ≠ "" ∧ row.eventId ≠ "" ∧ row.supportRef ≠ ""
  times : ∀ row ∈ occurrences, ∀ time ∈ row.eventTimeMs, (time : ℕ) < 2 ^ 63
  counts_lt : ∀ document ∈ documents, (document.occurrenceCount : ℕ) < 2 ^ 63
  documents_lt : documents.length < 2 ^ 64
  occurrences_lt : occurrences.length < 2 ^ 64
  lexical : LexicalFits format documents

/-- The occurrences come from the source. -/
def FromSource (source : SourceBinding) (occurrences : List FastOccurrence) : Prop :=
  ∀ row ∈ occurrences, row.snapshotSha256 = source.snapshotSha256 ∧
    row.mappingSha256 = source.mappingSha256

/-- The vectors are numbered, of the dimensions of the profile, finite, and of unit
length where the profile asks for it. -/
def ValidVectors (unitNorm : List F32 → Bool) (profile : EmbeddingProfile)
    (vectors : List OrderedVector) : Prop :=
  (∀ i vector, vectors[i]? = some vector → (vector.vectorOrdinal : ℕ) = i) ∧
    ∀ vector ∈ vectors, VectorAccepted unitNorm profile.dimensions profile.normalization vector

section Accept

variable {prims : Pipeline.Primitives} {storage : Storage} {unitNorm : List F32 → Bool}
  {documentStream : List (Result FastDocument)} {occurrenceStream : List (Result FastOccurrence)}
  {vectorStream : List (Result OrderedVector)} {options : IndexAssemblyOptions}

theorem assembleFastIndex_ok_iff :
    (∃ index, assembleFastIndex prims storage unitNorm documentStream occurrenceStream
        vectorStream options = .ok index) ↔
      ∃ documents occurrences vectors, documentStream = documents.map .ok ∧
        occurrenceStream = occurrences.map .ok ∧ vectorStream = vectors.map .ok ∧
        Closed documents occurrences vectors ∧ FromSource options.source occurrences ∧
        ValidVectors unitNorm options.embeddingProfile vectors ∧
        Admissible options.lexicalFormat documents occurrences := by
  constructor
  · rintro ⟨index, hrun⟩
    obtain ⟨⟨summary, lookup⟩, hdocuments, hrun⟩ := bind_eq_ok.mp hrun
    obtain ⟨⟨batches, total, lookup'⟩, hoccurrences, hrun⟩ := bind_eq_ok.mp hrun
    obtain ⟨finalized, hfinalize, hrun⟩ := bind_eq_ok.mp hrun
    obtain ⟨⟨vectorBytes, count⟩, hvectors, hrun⟩ := bind_eq_ok.mp hrun
    obtain ⟨_, hcount, hrun⟩ := bind_eq_ok.mp hrun
    obtain ⟨file, hlexical, -⟩ := bind_eq_ok.mp hrun
    obtain ⟨documents, hdocumentStream, haccepted, hwritten⟩ :=
      writeDocumentsStreaming_eq_ok.mp hdocuments
    obtain ⟨rfl, rfl⟩ := Prod.mk.inj hwritten
    obtain ⟨occurrences, hoccurrenceStream, hrows, hlength, hwritten⟩ :=
      writeOccurrencesStreaming_eq_ok.mp hoccurrences
    obtain ⟨rfl, hrest⟩ := Prod.mk.inj hwritten
    obtain ⟨rfl, rfl⟩ := Prod.mk.inj hrest
    obtain ⟨hclosed, -⟩ := finalizeOccurrenceLookup_eq_ok.mp hfinalize
    obtain ⟨vectors, hvectorStream, hvectorsAccepted, rfl⟩ :=
      exists_writeVectorsStreaming.mp ⟨vectorBytes, hvectors⟩
    have hvectorCount : vectors.length = documents.length := not_not.mp (throwIf_eq_ok.mp hcount)
    have hfits := (exists_writeLexical haccepted).mp ⟨file, hlexical⟩
    refine ⟨documents, occurrences, vectors, hdocumentStream, hoccurrenceStream, hvectorStream,
      ⟨haccepted.ascending, haccepted.ordinals, hvectorCount, hclosed, fun document hdocument => ?_⟩,
      fun row hrow => ⟨(hrows row hrow).snapshot, (hrows row hrow).mapping⟩,
      ⟨hvectorsAccepted.ordinals, hvectorsAccepted.accepted⟩,
      ⟨haccepted.ne_nil, haccepted.ids_ne, fun row hrow => (hrows row hrow).texts,
        fun row hrow => (hrows row hrow).time_lt,
        fun document hdocument => (haccepted.counts document hdocument).2, haccepted.length_lt,
        hlength, hfits⟩⟩
    have hne := (haccepted.counts document hdocument).1
    exact Nat.pos_of_ne_zero fun hzero => hne (Fin.ext hzero)
  · rintro ⟨documents, occurrences, vectors, rfl, rfl, rfl, hclosed, hsource, hvalid, hadmissible⟩
    have haccepted : DocumentsAccepted (decide (options.lexicalFormat = .jsonV2)) documents := by
      refine ⟨hadmissible.ne_nil, hadmissible.ids_ne, hclosed.ascending, hclosed.ordinals,
        fun document hdocument => ⟨fun hzero => ?_, hadmissible.counts_lt document hdocument⟩,
        hadmissible.documents_lt, fun _ => hadmissible.lexical.1⟩
      have hpos := hclosed.counts_pos document hdocument
      rw [hzero] at hpos
      exact absurd hpos (by decide)
    have hrows : ∀ row ∈ occurrences, OccurrenceAccepted options.source row := fun row hrow =>
      ⟨hadmissible.texts row hrow, (hsource row hrow).1, (hsource row hrow).2,
        hadmissible.times row hrow⟩
    have hvectors : VectorsAccepted unitNorm options.embeddingProfile.dimensions
        options.embeddingProfile.normalization vectors :=
      ⟨hvalid.1, hvalid.2, hclosed.vector_count.trans_lt hadmissible.documents_lt⟩
    have hwritten : ∃ bytes, writeVectorsStreaming unitNorm (vectors.map .ok)
        options.embeddingProfile.dimensions (prims.sha256 (documents.flatMap documentOrderBytes)).val
        options.embeddingProfile.normalization = .ok (bytes, vectors.length) :=
      exists_writeVectorsStreaming.mpr ⟨vectors, rfl, hvectors, rfl⟩
    obtain ⟨bytes, hbytes⟩ := hwritten
    have hlexical : ∃ file, writeLexical prims options.lexicalFormat (describedSummary prims.sha256
        (decide (options.lexicalFormat = .jsonV2)) documents) = .ok file :=
      (exists_writeLexical haccepted).mpr hadmissible.lexical
    obtain ⟨file, hfile⟩ := hlexical
    refine ⟨_, bind_eq_ok.mpr ⟨_, writeDocumentsStreaming_eq_ok.mpr ⟨documents, rfl, haccepted, rfl⟩,
      bind_eq_ok.mpr ⟨_, writeOccurrencesStreaming_eq_ok.mpr ⟨occurrences, rfl, hrows,
        hadmissible.occurrences_lt, rfl⟩, bind_eq_ok.mpr ⟨_,
          finalizeOccurrenceLookup_eq_ok.mpr ⟨hclosed.occurrences_closed, rfl⟩,
          bind_eq_ok.mpr ⟨_, hbytes, bind_eq_ok.mpr ⟨(), ?_, bind_eq_ok.mpr ⟨file, hfile, rfl⟩⟩⟩⟩⟩⟩⟩
    exact throwIf_eq_ok.mpr (not_not.mpr hclosed.vector_count)

theorem assembleFastIndex_rows {index : FastIndex}
    (h : assembleFastIndex prims storage unitNorm documentStream occurrenceStream vectorStream
      options = .ok index) :
    index.documents.flatten.map .ok = documentStream ∧
      index.occurrences.flatten.map .ok = occurrenceStream := by
  obtain ⟨⟨summary, lookup⟩, hdocuments, hrun⟩ := bind_eq_ok.mp h
  obtain ⟨⟨batches, total, lookup'⟩, hoccurrences, hrun⟩ := bind_eq_ok.mp hrun
  obtain ⟨finalized, -, hrun⟩ := bind_eq_ok.mp hrun
  obtain ⟨⟨vectorBytes, count⟩, -, hrun⟩ := bind_eq_ok.mp hrun
  obtain ⟨_, -, hrun⟩ := bind_eq_ok.mp hrun
  obtain ⟨file, -, hrun⟩ := bind_eq_ok.mp hrun
  obtain rfl := pure_eq_ok.mp hrun
  obtain ⟨documents, rfl, -, hwritten⟩ := writeDocumentsStreaming_eq_ok.mp hdocuments
  obtain ⟨rfl, rfl⟩ := Prod.mk.inj hwritten
  obtain ⟨occurrences, rfl, -, -, hwritten⟩ := writeOccurrencesStreaming_eq_ok.mp hoccurrences
  obtain ⟨rfl, -⟩ := Prod.mk.inj hwritten
  exact ⟨congrArg (List.map Except.ok) (RowWriter.flatten_close_ofRows documents),
    congrArg (List.map Except.ok) (RowWriter.flatten_close_ofRows occurrences)⟩

/-- The call can start: nothing is at the output, the identities are well formed, the
output has a name and no staging directory is in the way. -/
structure Ready (directory : OutputDirectory) (outputName : Option String)
    (options : IndexAssemblyOptions) : Prop where
  output : directory.output = none
  identity : validateAssemblyIdentity options.source options.embeddingProfile = .ok ()
  name : outputName ≠ none
  staging : directory.staging = false

theorem writeFastIndex_of_ready {directory : OutputDirectory} {outputName : Option String}
    (h : Ready directory outputName options) :
    writeFastIndexFromStreamsWithFormat prims storage unitNorm directory outputName documentStream
        occurrenceStream vectorStream options =
      match assembleFastIndex prims storage unitNorm documentStream occurrenceStream vectorStream
        options with
      | .ok index => (.ok index.manifest, ⟨some index, false⟩)
      | .error e => (.error e, ⟨none, false⟩) := by
  have houtput : ¬ directory.output.isSome = true := by
    rw [h.output]
    exact Bool.false_ne_true
  have hstaging : ¬ directory.staging = true := by
    rw [h.staging]
    exact Bool.false_ne_true
  rw [writeFastIndexFromStreamsWithFormat, if_neg houtput, h.identity]
  show (if outputName = none then _ else _) = _
  rw [if_neg h.name, if_neg hstaging]

theorem writeFastIndex_of_not_ready {directory : OutputDirectory} {outputName : Option String}
    (h : ¬ Ready directory outputName options) :
    ∃ e, writeFastIndexFromStreamsWithFormat prims storage unitNorm directory outputName
      documentStream occurrenceStream vectorStream options = (.error e, directory) := by
  rw [writeFastIndexFromStreamsWithFormat]
  by_cases houtput : directory.output.isSome = true
  · exact ⟨_, if_pos houtput⟩
  rw [if_neg houtput]
  cases hidentity : validateAssemblyIdentity options.source options.embeddingProfile with
  | error e => exact ⟨e, rfl⟩
  | ok u =>
    show ∃ e, (if outputName = none then _ else _) = _
    by_cases hname : outputName = none
    · exact ⟨_, if_pos hname⟩
    rw [if_neg hname]
    by_cases hstaging : directory.staging = true
    · exact ⟨_, if_pos hstaging⟩
    · refine absurd ⟨Option.not_isSome_iff_eq_none.mp houtput, hidentity, hname, ?_⟩ h
      exact Bool.not_eq_true _ ▸ hstaging

end Accept

/-- **Which streams are accepted.** An index is written exactly when the call can start
and the streams have no errors, are closed, come from the source, have valid vectors and
pass the checks of their rows; it then holds their rows. Any other call leaves the
output as it was. -/
theorem writeFastIndex_closure (prims : Pipeline.Primitives) (storage : Storage)
    (unitNorm : List F32 → Bool) (directory : OutputDirectory) (outputName : Option String)
    (documentStream : List (Result FastDocument)) (occurrenceStream : List (Result FastOccurrence))
    (vectorStream : List (Result OrderedVector)) (options : IndexAssemblyOptions) :
    let run := writeFastIndexFromStreamsWithFormat prims storage unitNorm directory outputName
      documentStream occurrenceStream vectorStream options
    ((∃ manifest, run.1 = .ok manifest) ↔
      Ready directory outputName options ∧
      ∃ documents occurrences vectors, documentStream = documents.map .ok ∧
        occurrenceStream = occurrences.map .ok ∧ vectorStream = vectors.map .ok ∧
        Closed documents occurrences vectors ∧ FromSource options.source occurrences ∧
        ValidVectors unitNorm options.embeddingProfile vectors ∧
        Admissible options.lexicalFormat documents occurrences) ∧
    (∀ manifest, run.1 = .ok manifest → ∃ index, run.2.output = some index ∧
      index.manifest = manifest ∧ index.documents.flatten.map .ok = documentStream ∧
      index.occurrences.flatten.map .ok = occurrenceStream) ∧
    ((¬ ∃ manifest, run.1 = .ok manifest) → run.2.output = directory.output) := by
  intro run
  by_cases hready : Ready directory outputName options
  · have hrun : run = _ := writeFastIndex_of_ready hready
    have hiff := @assembleFastIndex_ok_iff prims storage unitNorm documentStream occurrenceStream
      vectorStream options
    rw [← hiff]
    cases hassemble : assembleFastIndex prims storage unitNorm documentStream occurrenceStream
      vectorStream options with
    | ok index =>
      rw [hassemble] at hrun
      rw [hrun]
      refine ⟨iff_of_true ⟨_, rfl⟩ ⟨hready, _, rfl⟩, ?_, fun h => absurd ⟨_, rfl⟩ h⟩
      rintro _ ⟨⟩
      exact ⟨index, rfl, rfl, assembleFastIndex_rows hassemble⟩
    | error e =>
      rw [hassemble] at hrun
      rw [hrun, hready.output]
      refine ⟨iff_of_false ?_ ?_, ?_, fun _ => rfl⟩
      · rintro ⟨_, ⟨⟩⟩
      · rintro ⟨-, _, ⟨⟩⟩
      · rintro _ ⟨⟩
  · obtain ⟨e, hrun⟩ : ∃ e, run = (.error e, directory) := writeFastIndex_of_not_ready hready
    rw [hrun]
    refine ⟨iff_of_false ?_ fun h => hready h.1, ?_, fun _ => rfl⟩
    · rintro ⟨_, ⟨⟩⟩
    · rintro _ ⟨⟩

/-! ### Closed streams that are rejected

The source digests and the profile of the samples are well formed, and their vectors
have the one value 1. -/

def sampleDigestText : String := String.ofList (List.replicate 64 '0')

/-- Hashing and formats for the samples; every text has one digest. -/
def sampleAssemblyPrimitives : Pipeline.Primitives where
  sha256 := fun _ => ⟨sampleDigestText, by decide⟩
  canonicalJsonBytes := fun _ => []
  parseJson := fun _ => .error "not a document"

def sampleAssemblyOptions : IndexAssemblyOptions where
  source := ⟨sampleDigestText, sampleDigestText⟩
  buildScope := .full
  embeddingProfile := ⟨"profile", "1", sampleDigestText, "model", 1, "none", none, none, none⟩
  lexicalFormat := .sqliteV3
  pipelineProvenance := none
  testOnly := false

/-- A document with one occurrence. -/
def sampleFastDocument (documentId : String) : FastDocument :=
  ⟨documentId, sampleDigestText, "kind", "text", "[]", "[]", 1, 0⟩

def sampleFastOccurrence (documentId occurrenceId eventId supportRef : String)
    (eventTimeMs : Option U64) : FastOccurrence :=
  ⟨occurrenceId, documentId, eventTimeMs, "relation", "[]", sampleDigestText, sampleDigestText,
    eventId, supportRef⟩

def sampleOrderedVector : OrderedVector := ⟨0, [1065353216]⟩

theorem sampleAssemblyOptions_ready :
    Ready ⟨none, false⟩ (some "index") sampleAssemblyOptions := by
  have hdigest : ∃ bytes, decodeSha256 sampleDigestText = .ok bytes :=
    exists_decodeSha256 (sampleAssemblyPrimitives.sha256 [])
  have hprofile : validateEmbeddingProfile sampleAssemblyOptions.embeddingProfile = .ok () := by
    decide +kernel
  refine ⟨rfl, ?_, by decide, rfl⟩
  obtain ⟨bytes, hbytes⟩ := hdigest
  have hread : isErr (decodeSha256 sampleDigestText) = .ok false := by rw [hbytes, isErr]
  have hsource : sampleAssemblyOptions.source = ⟨sampleDigestText, sampleDigestText⟩ := rfl
  rw [validateAssemblyIdentity, hsource, hread, ok_bind, throwIf_bind_of_not Bool.false_ne_true,
    ok_bind, throwIf_bind_of_not Bool.false_ne_true, throwIf, if_neg (not_not.mpr hprofile)]

/-- Three streams without errors. -/
structure SampleStreams where
  documents : List FastDocument
  occurrences : List FastOccurrence
  vectors : List OrderedVector

/-- One document with its occurrence and its vector. -/
def oneDocument (documentId occurrenceId eventId supportRef : String)
    (eventTimeMs : Option U64) : SampleStreams :=
  ⟨[sampleFastDocument documentId],
    [sampleFastOccurrence documentId occurrenceId eventId supportRef eventTimeMs],
    [sampleOrderedVector]⟩

/-- The streams have every property of an index, and the call can start. -/
structure SampleStreams.Complete (streams : SampleStreams) : Prop where
  closed : Closed streams.documents streams.occurrences streams.vectors
  source : FromSource sampleAssemblyOptions.source streams.occurrences
  vectors_valid : ∀ unitNorm,
    ValidVectors unitNorm sampleAssemblyOptions.embeddingProfile streams.vectors
  ready : Ready ⟨none, false⟩ (some "index") sampleAssemblyOptions

/-- Whether an index is written from the streams. -/
def SampleStreams.Accepted (streams : SampleStreams) (prims : Pipeline.Primitives)
    (storage : Storage) (unitNorm : List F32 → Bool) : Prop :=
  ∃ manifest, (writeFastIndexFromStreamsWithFormat prims storage unitNorm ⟨none, false⟩
    (some "index") (streams.documents.map .ok) (streams.occurrences.map .ok)
    (streams.vectors.map .ok) sampleAssemblyOptions).1 = .ok manifest

theorem oneDocument_complete (documentId occurrenceId eventId supportRef : String)
    (eventTimeMs : Option U64) :
    (oneDocument documentId occurrenceId eventId supportRef eventTimeMs).Complete := by
  have hordinals : ∀ {α : Type} (x y : α) (i : ℕ), [x][i]? = some y → i = 0 ∧ y = x := by
    intro α x y i h
    cases i with
    | zero => exact ⟨rfl, (Option.some.inj h).symm⟩
    | succ i => cases h
  have hclosed : OccurrencesClosed [sampleFastDocument documentId]
      [sampleFastOccurrence documentId occurrenceId eventId supportRef eventTimeMs] := by
    refine ⟨List.nodup_singleton _, List.nodup_singleton _, fun document hdocument => ?_,
      fun row hrow => ?_⟩
    · obtain rfl := List.mem_singleton.mp hdocument
      exact List.countP_cons_of_pos (decide_eq_true rfl)
    · obtain rfl := List.mem_singleton.mp hrow
      exact ⟨_, List.mem_singleton_self _, rfl⟩
  refine ⟨⟨List.pairwise_singleton _ _, fun i document hi => ?_, rfl, hclosed,
    fun document hdocument => ?_⟩, fun row hrow => ?_, fun unitNorm => ⟨fun i vector hi => ?_,
      fun vector hvector => ?_⟩, sampleAssemblyOptions_ready⟩
  · obtain ⟨rfl, rfl⟩ := hordinals _ _ _ hi
    rfl
  · obtain rfl := List.mem_singleton.mp hdocument
    exact Nat.le_refl 1
  · obtain rfl := List.mem_singleton.mp hrow
    exact ⟨rfl, rfl⟩
  · obtain ⟨rfl, rfl⟩ := hordinals _ _ _ hi
    rfl
  · obtain rfl := List.mem_singleton.mp hvector
    refine ⟨rfl, fun value hvalue => ?_, fun hnormalization => ?_⟩
    · obtain rfl := List.mem_singleton.mp hvalue
      show 1065353216 / 2 ^ 23 % 2 ^ 8 ≠ 255
      decide
    · exact absurd hnormalization (show ¬ "none" = "l2" by decide)

theorem SampleStreams.Accepted.admissible {streams : SampleStreams} {prims : Pipeline.Primitives}
    {storage : Storage} {unitNorm : List F32 → Bool} (h : streams.Accepted prims storage unitNorm) :
    Admissible .sqliteV3 streams.documents streams.occurrences := by
  obtain ⟨manifest, hrun⟩ := h
  rw [writeFastIndex_of_ready sampleAssemblyOptions_ready] at hrun
  cases hassemble : assembleFastIndex prims storage unitNorm (streams.documents.map .ok)
    (streams.occurrences.map .ok) (streams.vectors.map .ok) sampleAssemblyOptions with
  | error e =>
    rw [hassemble] at hrun
    cases hrun
  | ok index =>
    obtain ⟨documents, occurrences, vectors, hdocuments, hoccurrences, -, -, -, -, hadmissible⟩ :=
      assembleFastIndex_ok_iff.mp ⟨index, hassemble⟩
    have hinjective : ∀ {α : Type}, Function.Injective (Except.ok : α → Result α) :=
      fun h => Except.ok.inj h
    obtain rfl := List.map_injective_iff.mpr hinjective hdocuments
    obtain rfl := List.map_injective_iff.mpr hinjective hoccurrences
    exact hadmissible

/-- Streams with every property of an index that are rejected: one without documents,
and streams of one document with an empty id, a zero character in its id, or an
occurrence with an empty id, event id or reference or a time of 2^63. -/
theorem completeStreams_rejected :
    [⟨[], [], []⟩, oneDocument "" "o" "e" "s" none, oneDocument "\x00" "o" "e" "s" none,
        oneDocument "d" "" "e" "s" none, oneDocument "d" "o" "" "s" none,
        oneDocument "d" "o" "e" "" none, oneDocument "d" "o" "e" "s" (some (2 ^ 63))].Forall
      fun streams => SampleStreams.Complete streams ∧
        ∀ prims storage unitNorm, ¬ streams.Accepted prims storage unitNorm := by
  rw [List.forall_iff_forall_mem]
  have hempty : SampleStreams.Complete ⟨[], [], []⟩ := by
    refine ⟨⟨.nil, by simp, rfl, ⟨.nil, .nil, by simp, by simp⟩, by simp⟩, ?_,
      fun unitNorm => ⟨by simp, ?_⟩, sampleAssemblyOptions_ready⟩
    · exact fun row hrow => by cases hrow
    · exact fun vector hvector => by cases hvector
  simp only [List.forall_mem_cons, List.not_mem_nil, false_imp_iff, implies_true, and_true]
  refine ⟨⟨hempty, fun prims storage unitNorm h => ?_⟩,
    ⟨oneDocument_complete .., fun prims storage unitNorm h => ?_⟩,
    ⟨oneDocument_complete .., fun prims storage unitNorm h => ?_⟩,
    ⟨oneDocument_complete .., fun prims storage unitNorm h => ?_⟩,
    ⟨oneDocument_complete .., fun prims storage unitNorm h => ?_⟩,
    ⟨oneDocument_complete .., fun prims storage unitNorm h => ?_⟩,
    ⟨oneDocument_complete .., fun prims storage unitNorm h => ?_⟩⟩
  · exact h.admissible.ne_nil rfl
  · exact (h.admissible.ids_ne _ (List.mem_singleton_self _)).1 rfl
  · exact (h.admissible.ids_ne _ (List.mem_singleton_self _)).2 (List.mem_singleton_self _)
  · exact (h.admissible.texts _ (List.mem_singleton_self _)).1 rfl
  · exact (h.admissible.texts _ (List.mem_singleton_self _)).2.1 rfl
  · exact (h.admissible.texts _ (List.mem_singleton_self _)).2.2 rfl
  · have htime := h.admissible.times _ (List.mem_singleton_self _) (2 ^ 63) rfl
    exact absurd htime (by decide)

end LivefireRag.Index
