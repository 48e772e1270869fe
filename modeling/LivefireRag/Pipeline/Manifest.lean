import Mathlib.Data.Finset.Dedup
import LivefireRag.Lib.Tiling
import LivefireRag.Pipeline.Basic

/-!
# Prepared corpora

A prepared corpus is a list of documents cut into objects (files), described by
a manifest. `PreparedCorpusManifest.validate` checks the manifest alone,
`validatePreparedDocuments` the documents against it.

What later proofs use of the two checks is stated once: `ObjectsCover`, the
objects of an accepted manifest have distinct paths and non-empty row ranges
that add up to the document count, and `DocumentsBound`, the accepted documents
number as many as the manifest says.
-/

namespace LivefireRag.Pipeline

open Fallible Machine

/-! ### Rows and objects -/

inductive DocumentKind where
  | activity
  | state
  | detection
  deriving DecidableEq

def DocumentKind.asStr : DocumentKind → String
  | .activity => "activity"
  | .state => "state"
  | .detection => "detection"

instance : ToJson DocumentKind := ⟨fun kind => .string kind.asStr⟩

structure PreparedDocumentRow where
  documentOrdinal : U64
  documentId : String
  documentSha256 : Digest
  semanticTextSha256 : Digest
  semanticText : String
  documentKind : DocumentKind
  primaryRelation : String
  facetsJson : String
  relationsJson : String
  occurrenceCount : U64
  deriving DecidableEq

instance : ToJson PreparedDocumentRow := ⟨fun row => .mkObject
  [("document_ordinal", toJson row.documentOrdinal), ("document_id", toJson row.documentId),
    ("document_sha256", toJson row.documentSha256),
    ("semantic_text_sha256", toJson row.semanticTextSha256),
    ("semantic_text", toJson row.semanticText), ("document_kind", toJson row.documentKind),
    ("primary_relation", toJson row.primaryRelation), ("facets_json", toJson row.facetsJson),
    ("relations_json", toJson row.relationsJson),
    ("occurrence_count", toJson row.occurrenceCount)]⟩

structure ObjectEntry where
  path : SafeRelativePath
  rows : U64
  bytes : U64
  sha256 : Digest
  logicalOrderSha256 : Digest
  deriving DecidableEq

def ObjectEntry.fields (object : ObjectEntry) : List (String × Json) :=
  [("path", toJson object.path), ("rows", toJson object.rows), ("bytes", toJson object.bytes),
    ("sha256", toJson object.sha256),
    ("logical_order_sha256", toJson object.logicalOrderSha256)]

/-- A file of prepared documents. Its entry is flattened into it. -/
structure PreparedDocumentObject where
  object : ObjectEntry
  ordinal : U32
  firstDocumentId : String
  lastDocumentId : String
  embeddingInputOrderSha256 : Digest
  deriving DecidableEq

instance : ToJson PreparedDocumentObject := ⟨fun object => .mkObject <|
  object.object.fields ++
  [("ordinal", toJson object.ordinal), ("first_document_id", toJson object.firstDocumentId),
    ("last_document_id", toJson object.lastDocumentId),
    ("embedding_input_order_sha256", toJson object.embeddingInputOrderSha256)]⟩

/-- A file of prepared occurrences. Its entry is flattened into it. -/
structure PreparedOccurrenceObject where
  object : ObjectEntry
  ordinal : U32
  relation : String
  deriving DecidableEq

instance : ToJson PreparedOccurrenceObject := ⟨fun object => .mkObject <|
  object.object.fields ++
  [("ordinal", toJson object.ordinal), ("relation", toJson object.relation)]⟩

structure RelationAccounting where
  sourceRows : U64
  searchableOccurrences : U64
  selectedOccurrences : U64
  excludedRows : U64
  deriving DecidableEq

instance : ToJson RelationAccounting := ⟨fun accounting => .mkObject
  [("source_rows", toJson accounting.sourceRows),
    ("searchable_occurrences", toJson accounting.searchableOccurrences),
    ("selected_occurrences", toJson accounting.selectedOccurrences),
    ("excluded_rows", toJson accounting.excludedRows)]⟩

structure PreparedCorpusManifest where
  schemaVersion : String
  componentSha256 : Digest
  dataset : DatasetIdentity
  projectionPolicy : ComponentRef
  documentSchema : ComponentRef
  occurrenceSchema : ComponentRef
  preparationImplementation : ComponentRef
  documentCount : U64
  occurrenceCount : U64
  documentOrderSha256 : Digest
  embeddingInputOrderSha256 : Digest
  documents : List PreparedDocumentObject
  occurrences : List PreparedOccurrenceObject
  relationAccounting : SortedMap String RelationAccounting
  deriving DecidableEq

/-- The fields of a manifest other than its own digest. -/
def PreparedCorpusManifest.body (manifest : PreparedCorpusManifest) : List (String × Json) :=
  [("schema_version", toJson manifest.schemaVersion), ("dataset", toJson manifest.dataset),
    ("projection_policy", toJson manifest.projectionPolicy),
    ("document_schema", toJson manifest.documentSchema),
    ("occurrence_schema", toJson manifest.occurrenceSchema),
    ("preparation_implementation", toJson manifest.preparationImplementation),
    ("document_count", toJson manifest.documentCount),
    ("occurrence_count", toJson manifest.occurrenceCount),
    ("document_order_sha256", toJson manifest.documentOrderSha256),
    ("embedding_input_order_sha256", toJson manifest.embeddingInputOrderSha256),
    ("documents", toJson manifest.documents), ("occurrences", toJson manifest.occurrences),
    ("relation_accounting", toJson manifest.relationAccounting)]

instance : ToJson PreparedCorpusManifest :=
  ⟨fun manifest => sealedObject manifest.componentSha256 manifest.body⟩

@[simp] theorem PreparedCorpusManifest.body_setDigest (manifest : PreparedCorpusManifest)
    (digest : Digest) : { manifest with componentSha256 := digest }.body = manifest.body := rfl

/-- A manifest with its digest filled in has the digest of its other fields. -/
theorem PreparedCorpusManifest.digest_setDigest (prims : Primitives)
    (manifest : PreparedCorpusManifest) :
    let filled :=
      { manifest with componentSha256 := canonicalDigest prims (.mkObject manifest.body) }
    filled.componentSha256 = canonicalDigest prims (.mkObject filled.body) := rfl

/-! ### Objects of a manifest -/

/-- What the pass over the document objects has seen. -/
structure DocumentObjectScan where
  index : ℕ
  rows : ℕ
  previousLast : Option String
  paths : List SafeRelativePath

def validateObject (scan : DocumentObjectScan) (object : PreparedDocumentObject) :
    Result DocumentObjectScan := do
  requireSafeU64 object.object.rows
  requireSafeU64 object.object.bytes
  throwIf ((object.ordinal : ℕ) ≠ scan.index ∨ (object.object.rows : ℕ) = 0 ∨
      (object.object.bytes : ℕ) = 0 ∨ object.firstDocumentId = "" ∨
      object.lastDocumentId < object.firstDocumentId ∨
      (∃ last ∈ scan.previousLast, object.firstDocumentId ≤ last) ∨
      object.object.path ∈ scan.paths)
    (.invalid "document object order")
  let rows ← orThrow (checkedAdd 64 scan.rows object.object.rows) (.invalid "document row total")
  return ⟨scan.index + 1, rows, some object.lastDocumentId, object.object.path :: scan.paths⟩

def validateObjects (objects : List PreparedDocumentObject) (expectedRows : U64) :
    Result Unit := do
  let scan ← objects.foldlM validateObject ⟨0, 0, none, []⟩
  throwIf (scan.rows ≠ expectedRows ∨ ¬ (0 < (expectedRows : ℕ) ↔ objects ≠ []))
    (.invalid "document object coverage")

/-- What the pass over the occurrence objects has seen. -/
structure OccurrenceObjectScan where
  index : ℕ
  rows : ℕ
  previousRelationIndex : Option ℕ
  paths : List SafeRelativePath

def validateOccurrenceObject (includedRelations : List String) (scan : OccurrenceObjectScan)
    (object : PreparedOccurrenceObject) : Result OccurrenceObjectScan := do
  requireSafeU64 object.object.rows
  requireSafeU64 object.object.bytes
  let relationIndex ← orThrow (includedRelations.findIdx? (· = object.relation))
    (.invalid "occurrence object relation order")
  throwIf ((object.ordinal : ℕ) ≠ scan.index ∨ (object.object.rows : ℕ) = 0 ∨
      (object.object.bytes : ℕ) = 0 ∨ object.relation = "" ∨
      object.object.path ∈ scan.paths ∨
      ∃ previous ∈ scan.previousRelationIndex, relationIndex < previous)
    (.invalid "occurrence object order")
  let rows ← orThrow (checkedAdd 64 scan.rows object.object.rows)
    (.invalid "occurrence row total")
  return ⟨scan.index + 1, rows, some relationIndex, object.object.path :: scan.paths⟩

def validateOccurrenceObjects (objects : List PreparedOccurrenceObject) (expectedRows : U64)
    (includedRelations : List String) : Result Unit := do
  let scan ← objects.foldlM (validateOccurrenceObject includedRelations) ⟨0, 0, none, []⟩
  throwIf (scan.rows ≠ expectedRows ∨ ¬ (0 < (expectedRows : ℕ) ↔ objects ≠ []))
    (.invalid "occurrence object coverage")

/-- One relation of the accounting: an included relation contributes its
selected occurrences to the total, another relation selects nothing. -/
def validateAccounting (includedRelations : List String) (selectedTotal : ℕ)
    (entry : String × RelationAccounting) : Result ℕ := do
  let (relation, accounting) := entry
  forM [accounting.sourceRows, accounting.searchableOccurrences,
    accounting.selectedOccurrences, accounting.excludedRows] requireSafeU64
  throwIf ((accounting.searchableOccurrences : ℕ) < accounting.selectedOccurrences ∨
      (accounting.sourceRows : ℕ) < accounting.excludedRows)
    (.invalid "relation accounting bounds")
  if relation ∈ includedRelations then
    throwIf (accounting.selectedOccurrences ≠ accounting.searchableOccurrences ∨
        checkedAdd 64 accounting.searchableOccurrences accounting.excludedRows ≠
          some (accounting.sourceRows : ℕ))
      (.invalid "included relation accounting")
    orThrow (checkedAdd 64 selectedTotal accounting.selectedOccurrences)
      (.invalid "relation accounting total")
  else
    throwIf ((accounting.searchableOccurrences : ℕ) ≠ 0 ∨
        (accounting.selectedOccurrences : ℕ) ≠ 0 ∨
        accounting.excludedRows ≠ accounting.sourceRows)
      (.invalid "excluded relation accounting")
    return selectedTotal

def validateRelationAccounting (manifest : PreparedCorpusManifest) : Result Unit := do
  let dataset := manifest.dataset
  let expected := dataset.includedRelations ++ dataset.excludedRelations ++
    dataset.structuredOnlyRelations
  throwIf (manifest.relationAccounting.keys.toFinset ≠ expected.toFinset)
    (.invalid "relation accounting coverage")
  let selectedTotal ← manifest.relationAccounting.entries.foldlM
    (validateAccounting dataset.includedRelations) 0
  throwIf (selectedTotal ≠ manifest.occurrenceCount) (.invalid "relation accounting total")

variable (prims : Primitives)

def PreparedCorpusManifest.validate (manifest : PreparedCorpusManifest) : Result Unit := do
  requireSafeU64 manifest.documentCount
  requireSafeU64 manifest.occurrenceCount
  throwIf (manifest.schemaVersion ≠ preparedCorpusSchema) (.invalid "prepared manifest schema")
  manifest.dataset.validate
  manifest.projectionPolicy.validate
  manifest.documentSchema.validate
  manifest.occurrenceSchema.validate
  manifest.preparationImplementation.validate
  validateObjects manifest.documents manifest.documentCount
  validateOccurrenceObjects manifest.occurrences manifest.occurrenceCount
    manifest.dataset.includedRelations
  throwIf (¬ (manifest.documents.map (·.object.path) ++
      manifest.occurrences.map (·.object.path)).Nodup)
    (.invalid "duplicate prepared object path")
  validateRelationAccounting manifest
  let digest ← componentDigest prims (toJson manifest)
  throwIf (manifest.componentSha256 ≠ digest) (.invalid "prepared component digest")

/-! ### Documents -/

def PreparedDocumentRow.validate (row : PreparedDocumentRow) : Result Unit := do
  requireSafeU64 row.documentOrdinal
  requireSafeU64 row.occurrenceCount
  requireText row.documentId
  requireText row.semanticText
  requireText row.primaryRelation
  validateCanonicalJson prims row.facetsJson
  validateCanonicalJson prims row.relationsJson
  throwIf (digestBytes prims (Text.utf8 row.semanticText) ≠ row.semanticTextSha256)
    (.invalid "semantic text digest")
  throwIf ((row.occurrenceCount : ℕ) = 0) (.invalid "document occurrence count")

def documentOrderDigest (ids : List String) : Digest :=
  prims.sha256 (ids.flatMap fun id => Text.utf8 id ++ [0])

def embeddingInputOrderDigest (rows : List PreparedDocumentRow) : Digest :=
  prims.sha256 (Text.utf8 "livefire.rag.embedding-input-order/1" ++ [0] ++
    rows.flatMap fun row =>
      [row.documentId, row.documentSha256.val, row.semanticTextSha256.val].flatMap
        fun field => Text.utf8 field ++ [0])

/-- One row of the document list: its ordinal is its position and its id is
above the id before it. -/
def validatePreparedDocument (state : ℕ × Option String) (row : PreparedDocumentRow) :
    Result (ℕ × Option String) := do
  row.validate prims
  throwIf ((row.documentOrdinal : ℕ) ≠ state.1 ∨ ∃ previous ∈ state.2, row.documentId ≤ previous)
    (.invalid "prepared document order")
  return (state.1 + 1, some row.documentId)

/-- The rows `offset, …, stop - 1` of a list, when it has that many. -/
def rowRange {α : Type} (rows : List α) (offset stop : ℕ) : Option (List α) :=
  if offset ≤ stop ∧ stop ≤ rows.length then some (Tiling.segment rows offset stop) else none

@[simp] theorem rowRange_eq_some {α : Type} {rows range : List α} {offset stop : ℕ} :
    rowRange rows offset stop = some range ↔
      (offset ≤ stop ∧ stop ≤ rows.length) ∧ Tiling.segment rows offset stop = range := by
  unfold rowRange
  split <;> simp_all

/-- One object against the rows it covers, from `offset` on. -/
def validateDocumentObject (rows : List PreparedDocumentRow) (offset : ℕ)
    (object : PreparedDocumentObject) : Result ℕ := do
  let stop ← orThrow (checkedAdd 64 offset object.object.rows) (.invalid "document object rows")
  let objectRows ← orThrow (rowRange rows offset stop) (.invalid "document object rows")
  let first ← orThrow objectRows.head? (.invalid "document object rows")
  let last ← orThrow objectRows.getLast? (.invalid "document object rows")
  throwIf (first.documentId ≠ object.firstDocumentId ∨ last.documentId ≠ object.lastDocumentId ∨
      canonicalDigest prims (toJson objectRows) ≠ object.object.logicalOrderSha256 ∨
      embeddingInputOrderDigest prims objectRows ≠ object.embeddingInputOrderSha256)
    (.invalid "document object metadata")
  return stop

def validatePreparedDocuments (manifest : PreparedCorpusManifest)
    (rows : List PreparedDocumentRow) : Result Unit := do
  throwIf (rows.length ≠ (manifest.documentCount : ℕ)) (.invalid "prepared document count")
  let _ ← rows.foldlM (validatePreparedDocument prims) (0, none)
  throwIf (documentOrderDigest prims (rows.map (·.documentId)) ≠ manifest.documentOrderSha256 ∨
      embeddingInputOrderDigest prims rows ≠ manifest.embeddingInputOrderSha256)
    (.invalid "prepared document order digest")
  let offset ← manifest.documents.foldlM (validateDocumentObject prims rows) 0
  throwIf (offset ≠ rows.length) (.invalid "document object coverage")

/-! ### What acceptance says -/

/-- The objects of an accepted manifest: distinct paths, no empty object, and as
many rows in all as there are documents. -/
structure ObjectsCover (objects : List PreparedDocumentObject) (documentCount : ℕ) : Prop where
  paths_nodup : (objects.map (·.object.path)).Nodup
  rows_pos : ∀ object ∈ objects, 0 < (object.object.rows : ℕ)
  rows_sum : (objects.map fun object => (object.object.rows : ℕ)).sum = documentCount

/-- Acceptance of the objects, read off the scan: after any prefix of them the
scan has collected its paths and added up its rows. -/
theorem validateObjects_objectsCover {objects : List PreparedDocumentObject} {expectedRows : U64}
    {u : Unit} (h : validateObjects objects expectedRows = .ok u) :
    ObjectsCover objects expectedRows := by
  obtain ⟨scan, hscan, hcover⟩ := bind_eq_ok.mp h
  rw [throwIf_eq_ok, not_or, not_not] at hcover
  have hinv := foldlM_invariant
    (P := fun pre (scan : DocumentObjectScan) =>
      scan.paths = (pre.map (·.object.path)).reverse ∧ scan.paths.Nodup ∧
      (∀ object ∈ pre, 0 < (object.object.rows : ℕ)) ∧
      (pre.map fun object => (object.object.rows : ℕ)).sum = scan.rows)
    ⟨rfl, List.nodup_nil, by simp, rfl⟩ ?_ hscan
  · obtain ⟨hpaths, hnodup, hpos, hsum⟩ := hinv
    refine ⟨?_, hpos, hsum.trans hcover.1⟩
    rwa [hpaths, List.nodup_reverse] at hnodup
  · rintro pre object post scan scan' - ⟨hpaths, hnodup, hpos, hsum⟩ hstep
    simp only [validateObject, bind_eq_ok, throwIf_eq_ok, orThrow_eq_ok, checkedAdd_eq_some,
      pure_eq_ok, not_or] at hstep
    obtain ⟨-, -, -, -, -, ⟨-, hrows, -, -, -, -, hfresh⟩, rows, ⟨-, rfl⟩, rfl⟩ := hstep
    refine ⟨by simp [hpaths], List.nodup_cons.mpr ⟨hfresh, hnodup⟩, ?_, by simp [hsum]⟩
    intro other hother
    rcases List.mem_append.mp hother with hother | hother
    · exact hpos other hother
    · obtain rfl := List.mem_singleton.mp hother
      exact Nat.pos_of_ne_zero hrows

/-- **Acceptance of a manifest**, check by check. -/
theorem PreparedCorpusManifest.validate_eq_ok {prims : Primitives}
    {manifest : PreparedCorpusManifest} {u : Unit} :
    manifest.validate prims = .ok u ↔
      (manifest.documentCount : ℕ) ≤ maxSafeJsonInteger ∧
      (manifest.occurrenceCount : ℕ) ≤ maxSafeJsonInteger ∧
      manifest.schemaVersion = preparedCorpusSchema ∧ manifest.dataset.validate = .ok () ∧
      manifest.projectionPolicy.validate = .ok () ∧ manifest.documentSchema.validate = .ok () ∧
      manifest.occurrenceSchema.validate = .ok () ∧
      manifest.preparationImplementation.validate = .ok () ∧
      validateObjects manifest.documents manifest.documentCount = .ok () ∧
      validateOccurrenceObjects manifest.occurrences manifest.occurrenceCount
        manifest.dataset.includedRelations = .ok () ∧
      (manifest.documents.map (·.object.path) ++ manifest.occurrences.map (·.object.path)).Nodup ∧
      validateRelationAccounting manifest = .ok () ∧
      manifest.componentSha256 = canonicalDigest prims (.mkObject manifest.body) := by
  have hdigest : componentDigest prims (toJson manifest) =
      .ok (canonicalDigest prims (.mkObject manifest.body)) :=
    componentDigest_sealedObject prims (by simp [PreparedCorpusManifest.body])
  simp only [PreparedCorpusManifest.validate, bind_eq_ok, exists_unit, requireSafeU64_eq_ok,
    throwIf_eq_ok, not_not, hdigest, Except.ok.injEq, exists_eq_left']

theorem PreparedCorpusManifest.objectsCover {prims : Primitives}
    {manifest : PreparedCorpusManifest} {u : Unit} (h : manifest.validate prims = .ok u) :
    ObjectsCover manifest.documents manifest.documentCount := by
  obtain ⟨-, -, -, -, -, -, -, -, hobjects, -⟩ := PreparedCorpusManifest.validate_eq_ok.mp h
  exact validateObjects_objectsCover hobjects

theorem PreparedDocumentRow.validate_eq_ok {prims : Primitives} {row : PreparedDocumentRow}
    {u : Unit} :
    row.validate prims = .ok u ↔
      (row.documentOrdinal : ℕ) ≤ maxSafeJsonInteger ∧
      (row.occurrenceCount : ℕ) ≤ maxSafeJsonInteger ∧
      row.documentId ≠ "" ∧ row.semanticText ≠ "" ∧ row.primaryRelation ≠ "" ∧
      validateCanonicalJson prims row.facetsJson = .ok () ∧
      validateCanonicalJson prims row.relationsJson = .ok () ∧
      digestBytes prims (Text.utf8 row.semanticText) = row.semanticTextSha256 ∧
      (row.occurrenceCount : ℕ) ≠ 0 := by
  simp only [PreparedDocumentRow.validate, bind_eq_ok, exists_unit, requireSafeU64_eq_ok,
    requireText_eq_ok, throwIf_eq_ok, not_not, ne_eq]

theorem validatePreparedDocuments_length {prims : Primitives} {manifest : PreparedCorpusManifest}
    {rows : List PreparedDocumentRow} {u : Unit}
    (h : validatePreparedDocuments prims manifest rows = .ok u) :
    rows.length = manifest.documentCount := by
  obtain ⟨_, hcount, _⟩ := bind_eq_ok.mp h
  exact not_not.mp (throwIf_eq_ok.mp hcount)

end LivefireRag.Pipeline
