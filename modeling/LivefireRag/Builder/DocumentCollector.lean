import Mathlib.Data.Finset.Image
import Mathlib.Data.Prod.Lex
import LivefireRag.Lib.BottomSample
import LivefireRag.Lib.Grouping
import LivefireRag.Lib.Machine
import LivefireRag.Lib.Ranking
import LivefireRag.Lib.Text
import LivefireRag.Builder.Basic
import LivefireRag.Pipeline.PlanTiling

/-!
# The census and sample of documents

The first pass over a source collects its documents. A full build keeps them all; a
representative build keeps, in each relation, at most `representativeRelationCap` of
them, those whose hashed ids are smallest. The documents come in any order, a document
comes once for each row it was projected from, and one that has been evicted may come
again.

What the collector holds after any number of rows is said in `Reached`: per relation the
retained ids are the smallest of the ids seen (`IsBottom`), and the priorities are exactly
the keys of the retained ids. `observe_reached` is the step, one case for each way a
document can be retained, dropped or evict another; `collect_reached` is the run. The
final result follows from the invariant alone, so it depends only on which documents
were offered (`sampledDocuments_eq`).
-/

namespace LivefireRag.Builder

open Fallible Machine Grouping Ranking BottomSample Index

/-! ### Rows and their accounting -/

inductive BuildSelection where
  | full
  | representative
  deriving DecidableEq

inductive EventTimeAvailability where
  | available
  | missing
  | presentUnparsed
  deriving DecidableEq

structure TimestampAccounting where
  available : ℕ
  indexedMilliseconds : ℕ
  beforeUnixEpoch : ℕ
  missing : ℕ
  presentUnparsed : ℕ
  deriving DecidableEq

def TimestampAccounting.observe (accounting : TimestampAccounting)
    (availability : EventTimeAvailability) (eventTimeMs : Option U64) : TimestampAccounting :=
  match availability with
  | .available =>
    let accounting := { accounting with available := accounting.available + 1 }
    if eventTimeMs.isSome then
      { accounting with indexedMilliseconds := accounting.indexedMilliseconds + 1 }
    else
      { accounting with beforeUnixEpoch := accounting.beforeUnixEpoch + 1 }
  | .missing => { accounting with missing := accounting.missing + 1 }
  | .presentUnparsed => { accounting with presentUnparsed := accounting.presentUnparsed + 1 }

/-- A row of the source with the document projected from it, if it has one. -/
structure SourceRow where
  relation : String
  document : Option FastDocument
  eventTimeAvailability : EventTimeAvailability
  eventTimeMs : Option U64

structure SelectedDocument where
  document : FastDocument
  primaryRelation : String
  relations : Finset String
  deriving DecidableEq

/-! ### The collector -/

def representativeRelationCap : ℕ := 2000

/-- `priorities` holds, by relation, the priorities and ids of the retained documents. -/
structure DocumentCollector where
  selection : BuildSelection
  sampleSeed : String
  selected : SortedMap String SelectedDocument
  priorities : SortedMap String (Finset (String ×ₗ String))
  seenByRelation : SortedMap String (Finset String)
  sourceRowsScanned : ℕ
  sourceRowsByRelation : SortedMap String ℕ
  structuredOnlyByRelation : SortedMap String ℕ
  projectedSemanticOccurrences : ℕ
  sourceTimestamps : TimestampAccounting

structure FirstPassAccounting where
  sourceRowsScanned : ℕ
  sourceRowsByRelation : SortedMap String ℕ
  structuredOnlyByRelation : SortedMap String ℕ
  projectedSemanticOccurrences : ℕ
  sourceTimestamps : TimestampAccounting
  sourceDocumentsByRelation : SortedMap String ℕ
  relationBudgets : SortedMap String ℕ
  selectedByRelation : SortedMap String ℕ

section Model

variable (prims : Pipeline.Primitives)

def samplePriority (snapshotSha256 documentId : String) : String :=
  (prims.sha256 (Text.utf8 "livefire-rag-scenario-blind-document-sample-v1\x00" ++
    Text.utf8 snapshotSha256 ++ [0] ++ Text.utf8 documentId)).val

/-- What the documents of a relation are ordered by: the priority, then the id. -/
def sampleKey (snapshotSha256 documentId : String) : String ×ₗ String :=
  toLex (samplePriority prims snapshotSha256 documentId, documentId)

def DocumentCollector.new (selection : BuildSelection) (snapshotSha256 : String)
    (relations : List String) : DocumentCollector where
  selection := selection
  sampleSeed := snapshotSha256
  selected := .empty
  priorities := .empty
  seenByRelation := .ofList (relations.map fun relation => (relation, ∅))
  sourceRowsScanned := 0
  sourceRowsByRelation := .empty
  structuredOnlyByRelation := .empty
  projectedSemanticOccurrences := 0
  sourceTimestamps := ⟨0, 0, 0, 0, 0⟩

def DocumentCollector.observeSourceRow (collector : DocumentCollector) (relation : String)
    (hasSemanticDocument : Bool) (availability : EventTimeAvailability)
    (eventTimeMs : Option U64) : DocumentCollector :=
  { collector with
    sourceRowsScanned := collector.sourceRowsScanned + 1
    sourceRowsByRelation := increment collector.sourceRowsByRelation relation
    structuredOnlyByRelation :=
      if hasSemanticDocument then collector.structuredOnlyByRelation
      else increment collector.structuredOnlyByRelation relation
    sourceTimestamps := collector.sourceTimestamps.observe availability eventTimeMs }

/-- The priorities of a relation, none at first. -/
def DocumentCollector.prioritiesOf (collector : DocumentCollector) (relation : String) :
    Finset (String ×ₗ String) := (collector.priorities.get? relation).getD ∅

/-- The ids of a relation seen so far. -/
def DocumentCollector.seenOf (collector : DocumentCollector) (relation : String) :
    Finset String := (collector.seenByRelation.get? relation).getD ∅

/-- The collector with a place for a new document of a relation: the greatest of a full
sample makes room for a smaller one; there is none for a greater one. -/
def DocumentCollector.admit (collector : DocumentCollector) (relation documentId : String) :
    Result (Option DocumentCollector) :=
  match collector.selection with
  | .full => return some collector
  | .representative => do
    let priorities := collector.prioritiesOf relation
    let candidate := sampleKey prims collector.sampleSeed documentId
    if priorities.card = representativeRelationCap then
      let worst ← orThrow (greatest priorities) .aborted
      if worst ≤ candidate then
        return none
      else
        return some { collector with
          selected := collector.selected.erase (ofLex worst).2
          priorities := collector.priorities.insert relation
            (insert candidate (priorities.erase worst)) }
    else
      return some { collector with
        priorities := collector.priorities.insert relation (insert candidate priorities) }

/-- The occurrence of a document in a relation, counted. -/
def DocumentCollector.noteOccurrence (collector : DocumentCollector) (document : FastDocument)
    (relation : String) : DocumentCollector :=
  { collector with
    projectedSemanticOccurrences := collector.projectedSemanticOccurrences + 1
    seenByRelation := collector.seenByRelation.insert relation
      (insert document.documentId (collector.seenOf relation)) }

/-- The decision about a counted document. -/
def DocumentCollector.offer (collector : DocumentCollector) (document : FastDocument)
    (relation : String) : Result DocumentCollector := do
  match collector.selected.get? document.documentId with
  | some selected =>
    throwIf (selected.primaryRelation ≠ relation) (.inconsistentDocument document.documentId)
    throwIf (selected.document.documentSha256 ≠ document.documentSha256 ∨
        selected.document.semanticText ≠ document.semanticText ∨
        selected.document.documentKind ≠ document.documentKind ∨
        selected.document.facetsJson ≠ document.facetsJson)
      (.inconsistentDocument document.documentId)
    return { collector with
      selected := collector.selected.insert document.documentId
        { selected with relations := insert relation selected.relations } }
  | none =>
    match ← collector.admit prims relation document.documentId with
    | none => return collector
    | some collector =>
      return { collector with
        selected := collector.selected.insert document.documentId
          ⟨document, relation, {relation}⟩ }

def DocumentCollector.retain (collector : DocumentCollector) (document : FastDocument)
    (relation : String) : Result DocumentCollector :=
  (collector.noteOccurrence document relation).offer prims document relation

/-- One row: it is accounted for, and its document is offered. -/
def DocumentCollector.observe (collector : DocumentCollector) (row : SourceRow) :
    Result DocumentCollector :=
  let collector := collector.observeSourceRow row.relation row.document.isSome
    row.eventTimeAvailability row.eventTimeMs
  match row.document with
  | none => return collector
  | some document => collector.retain prims document row.relation

/-- A pass over the rows. -/
def collectRows (selection : BuildSelection) (snapshotSha256 : String) (relations : List String)
    (rows : List SourceRow) : Result DocumentCollector :=
  rows.foldlM (DocumentCollector.observe prims) (.new selection snapshotSha256 relations)

/-- The budget of a relation of which so many documents were seen. -/
def BuildSelection.budget (selection : BuildSelection) (count : ℕ) : ℕ :=
  match selection with
  | .full => count
  | .representative => min count representativeRelationCap

/-- The retained documents in order of their ids, numbered; `writeRelations` is the JSON
text of a set of relations. -/
def DocumentCollector.sampledDocuments (writeRelations : Finset String → String)
    (collector : DocumentCollector) : List FastDocument :=
  let documents := collector.selected.values.map fun selected =>
    { selected.document with relationsJson := writeRelations selected.relations }
  (sortBy (·.documentId) documents).zipIdx.map fun (document, ordinal) =>
    { document with vectorOrdinal := Fin.ofNat (2 ^ 64) ordinal }

def DocumentCollector.sourceDocumentsByRelation (collector : DocumentCollector) :
    SortedMap String ℕ := collector.seenByRelation.mapValues Finset.card

def DocumentCollector.relationBudgets (collector : DocumentCollector) : SortedMap String ℕ :=
  .ofList ((collector.sourceDocumentsByRelation.entries.filter (0 < ·.2)).map fun entry =>
    (entry.1, collector.selection.budget entry.2))

def DocumentCollector.selectedByRelation (collector : DocumentCollector) : SortedMap String ℕ :=
  tally (collector.selected.values.map (·.primaryRelation))

def relationBudgetMismatch : Error :=
  .accountingClosure "selected relation counts do not match relation budgets"

def DocumentCollector.finish (writeRelations : Finset String → String)
    (collector : DocumentCollector) : Result (List FastDocument × FirstPassAccounting) := do
  throwIf (collector.selectedByRelation ≠ collector.relationBudgets) relationBudgetMismatch
  let structuredOnly := collector.structuredOnlyByRelation.values.sum
  let accounted ← orThrow
    (checkedAdd 64 collector.projectedSemanticOccurrences structuredOnly) .countOverflow
  throwIf (collector.sourceRowsScanned ≠ accounted ∨
      collector.sourceRowsScanned ≠ collector.sourceRowsByRelation.values.sum)
    (.accountingClosure "source rows do not reconcile to semantic and structured-only rows")
  return (collector.sampledDocuments writeRelations, {
    sourceRowsScanned := collector.sourceRowsScanned
    sourceRowsByRelation := collector.sourceRowsByRelation
    structuredOnlyByRelation := collector.structuredOnlyByRelation
    projectedSemanticOccurrences := collector.projectedSemanticOccurrences
    sourceTimestamps := collector.sourceTimestamps
    sourceDocumentsByRelation := collector.sourceDocumentsByRelation
    relationBudgets := collector.relationBudgets
    selectedByRelation := collector.selectedByRelation })

end Model

/-! ### What was offered -/

/-- The documents offered, with their relations. -/
def offered (rows : List SourceRow) : List (String × FastDocument) :=
  rows.filterMap fun row => row.document.map fun document => (row.relation, document)

/-- The ids offered in a relation. -/
def seenIds (rows : List SourceRow) (relation : String) : Finset String :=
  (((offered rows).filter (·.1 = relation)).map (·.2.documentId)).toFinset

/-- A document without what the pass fills in at its end. -/
def contentOf (document : FastDocument) : FastDocument :=
  { document with relationsJson := "", vectorOrdinal := 0 }

/-- The rows of one id are in one relation and agree on the document. -/
def ConsistentRows (rows : List SourceRow) : Prop :=
  ∀ p ∈ offered rows, ∀ q ∈ offered rows, p.2.documentId = q.2.documentId →
    p.1 = q.1 ∧ contentOf p.2 = contentOf q.2

/-- The ids that a map of selected documents holds for a relation. -/
def retainedIn (selected : SortedMap String SelectedDocument) (relation : String) :
    Finset String :=
  ((selected.entries.filter (·.2.primaryRelation = relation)).map Prod.fst).toFinset

/-- The ids of the documents that a collector holds for a relation. -/
def DocumentCollector.retainedOf (collector : DocumentCollector) (relation : String) :
    Finset String := retainedIn collector.selected relation

variable {rows : List SourceRow} {row : SourceRow} {document : FastDocument}
  {relation relation' id : String} {selected : SortedMap String SelectedDocument}

theorem offered_append (rows rows' : List SourceRow) :
    offered (rows ++ rows') = offered rows ++ offered rows' := List.filterMap_append

theorem offered_singleton (h : row.document = some document) :
    offered [row] = [(row.relation, document)] := by
  rw [offered, List.filterMap_cons_some (by rw [h]; rfl)]
  rfl

theorem offered_singleton_none (h : row.document = none) : offered [row] = [] := by
  rw [offered, List.filterMap_cons_none (by rw [h]; rfl)]
  rfl

theorem mem_seenIds :
    id ∈ seenIds rows relation ↔
      ∃ document, (relation, document) ∈ offered rows ∧ document.documentId = id := by
  simp only [seenIds, List.mem_toFinset, List.mem_map, List.mem_filter, decide_eq_true_eq]
  constructor
  · rintro ⟨⟨_, document⟩, ⟨hmem, rfl⟩, rfl⟩
    exact ⟨document, hmem, rfl⟩
  · rintro ⟨document, hmem, rfl⟩
    exact ⟨(relation, document), ⟨hmem, rfl⟩, rfl⟩

theorem seenIds_concat (h : row.document = some document) (relation : String) :
    seenIds (rows ++ [row]) relation =
      if relation = row.relation then insert document.documentId (seenIds rows relation)
      else seenIds rows relation := by
  ext id
  rw [mem_seenIds, offered_append, offered_singleton h]
  simp only [List.mem_append, List.mem_singleton, Prod.mk.injEq]
  by_cases hrelation : relation = row.relation
  · rw [if_pos hrelation, Finset.mem_insert, mem_seenIds]
    constructor
    · rintro ⟨other, hmem | ⟨-, rfl⟩, hid⟩
      · exact Or.inr ⟨other, hmem, hid⟩
      · exact Or.inl hid.symm
    · rintro (rfl | ⟨other, hmem, hid⟩)
      · exact ⟨document, Or.inr ⟨hrelation, rfl⟩, rfl⟩
      · exact ⟨other, Or.inl hmem, hid⟩
  · rw [if_neg hrelation, mem_seenIds]
    simp only [hrelation, false_and, or_false]

theorem seenIds_concat_none (h : row.document = none) (relation : String) :
    seenIds (rows ++ [row]) relation = seenIds rows relation := by
  rw [seenIds, offered_append, offered_singleton_none h, List.append_nil]
  rfl

/-- Rows that were consistent with more after them are consistent. -/
theorem ConsistentRows.left {rows' : List SourceRow} (h : ConsistentRows (rows ++ rows')) :
    ConsistentRows rows := by
  intro p hp q hq
  rw [ConsistentRows, offered_append] at h
  exact h p (List.mem_append_left _ hp) q (List.mem_append_left _ hq)

/-! ### What is retained -/

theorem mem_retainedIn :
    id ∈ retainedIn selected relation ↔
      ∃ entry, selected.get? id = some entry ∧ entry.primaryRelation = relation := by
  simp only [retainedIn, List.mem_toFinset, List.mem_map, List.mem_filter, decide_eq_true_eq,
    SortedMap.get?_eq_some_iff]
  constructor
  · rintro ⟨⟨_, entry⟩, ⟨hmem, hrelation⟩, rfl⟩
    exact ⟨entry, hmem, hrelation⟩
  · rintro ⟨entry, hmem, hrelation⟩
    exact ⟨(id, entry), ⟨hmem, hrelation⟩, rfl⟩

/-- A new document is retained in its relation and nothing else changes. -/
theorem retainedIn_insert {entry : SelectedDocument} (hnew : selected.get? id = none)
    (relation : String) :
    retainedIn (selected.insert id entry) relation =
      if relation = entry.primaryRelation then insert id (retainedIn selected relation)
      else retainedIn selected relation := by
  ext id'
  rw [mem_retainedIn, SortedMap.get?_insert]
  by_cases hid : id' = id
  · subst hid
    have habsent : id' ∉ retainedIn selected relation := by
      rw [mem_retainedIn, hnew]
      rintro ⟨entry', hentry', -⟩
      cases hentry'
    rw [if_pos rfl]
    split
    · next hrelation => simp [hrelation]
    · next hrelation => simp [habsent, Ne.symm hrelation]
  · rw [if_neg hid, ← mem_retainedIn]
    split
    · rw [Finset.mem_insert, or_iff_right hid]
    · rfl

theorem retainedIn_erase (relation : String) :
    retainedIn (selected.erase id) relation = (retainedIn selected relation).erase id := by
  ext id'
  rw [mem_retainedIn, SortedMap.get?_erase, Finset.mem_erase, mem_retainedIn]
  by_cases hid : id' = id
  · simp [hid]
  · simp [hid]

/-- An id has one entry, so it is retained in one relation. -/
theorem retainedIn_disjoint (h : id ∈ retainedIn selected relation) (hne : relation' ≠ relation) :
    id ∉ retainedIn selected relation' := by
  intro h'
  obtain ⟨entry, hentry, hrelation⟩ := mem_retainedIn.mp h
  obtain ⟨entry', hentry', hrelation'⟩ := mem_retainedIn.mp h'
  rw [hentry] at hentry'
  obtain rfl := Option.some.inj hentry'
  exact hne (hrelation'.symm.trans hrelation)

/-! ### The invariant -/

section Runs

variable {prims : Pipeline.Primitives} {selection : BuildSelection} {seed : String}
  {relations : List String} {collector : DocumentCollector}

theorem sampleKey_injective (seed : String) : Function.Injective (sampleKey prims seed) := by
  intro a b h
  exact congrArg (fun key => (ofLex key).2) h

/-- What the selected documents and the priorities are after the rows. -/
structure Sampled (prims : Pipeline.Primitives) (collector : DocumentCollector)
    (rows : List SourceRow) : Prop where
  entries : ∀ id entry, collector.selected.get? id = some entry →
    entry.document.documentId = id ∧ (entry.primaryRelation, entry.document) ∈ offered rows ∧
      entry.relations = {entry.primaryRelation}
  full : collector.selection = .full → ∀ relation,
    collector.retainedOf relation = seenIds rows relation
  priorities : collector.selection = .representative → ∀ relation,
    collector.prioritiesOf relation =
      (collector.retainedOf relation).image (sampleKey prims collector.sampleSeed)
  bottom : collector.selection = .representative → ∀ relation,
    IsBottom representativeRelationCap
      ((seenIds rows relation).image (sampleKey prims collector.sampleSeed))
      ((collector.retainedOf relation).image (sampleKey prims collector.sampleSeed))

/-- What the counts and the ids seen are after the rows. -/
structure Accounted (selection : BuildSelection) (seed : String) (relations : List String)
    (collector : DocumentCollector) (rows : List SourceRow) : Prop where
  selection_eq : collector.selection = selection
  seed_eq : collector.sampleSeed = seed
  seen : ∀ relation, collector.seenByRelation.get? relation =
    if relation ∈ relations ∨ (seenIds rows relation).Nonempty then some (seenIds rows relation)
    else none
  scanned : collector.sourceRowsScanned = rows.length
  byRelation : collector.sourceRowsByRelation = tally (rows.map (·.relation))
  structuredOnly : collector.structuredOnlyByRelation =
    tally ((rows.filter (·.document.isNone)).map (·.relation))
  semantic : collector.projectedSemanticOccurrences = (offered rows).length

structure Reached (prims : Pipeline.Primitives) (selection : BuildSelection) (seed : String)
    (relations : List String) (collector : DocumentCollector) (rows : List SourceRow) : Prop where
  sampled : Sampled prims collector rows
  accounted : Accounted selection seed relations collector rows

theorem new_reached (prims : Pipeline.Primitives) (selection : BuildSelection) (seed : String)
    (relations : List String) :
    Reached prims selection seed relations (.new selection seed relations) [] := by
  have hretained : ∀ relation,
      (DocumentCollector.new selection seed relations).retainedOf relation = ∅ := fun _ => rfl
  refine ⟨⟨?_, ?_, ?_, ?_⟩, ⟨rfl, rfl, ?_, rfl, rfl, rfl, rfl⟩⟩
  · intro id entry hentry
    cases hentry
  · intro _ relation
    rfl
  · intro _ relation
    rw [hretained, Finset.image_empty]
    rfl
  · intro _ relation
    rw [hretained]
    exact isBottom_empty _
  · intro relation
    have hseen : seenIds [] relation = ∅ := rfl
    rw [hseen]
    simp only [Finset.not_nonempty_empty, or_false]
    split
    · next hmem =>
      obtain ⟨seen, hget⟩ : ∃ seen, (DocumentCollector.new selection seed relations
          ).seenByRelation.get? relation = some seen :=
        SortedMap.mem_keys_iff.mp (SortedMap.mem_keys_ofList.mpr (by simpa using hmem))
      obtain ⟨other, -, hpair⟩ := List.mem_map.mp
        (SortedMap.mem_of_get?_ofList hget)
      rw [hget, ← (Prod.mk.inj hpair).2]
    · next hmem =>
      refine SortedMap.get?_eq_none_iff.mpr fun hkey => hmem ?_
      simpa using SortedMap.mem_keys_ofList.mp hkey

/-! ### One row -/

/-- More rows that offer only what was offered leave the sample as it is. -/
theorem Sampled.concat_of_mem (h : Sampled prims collector rows)
    (hrow : row.document = some document)
    (hseen : document.documentId ∈ seenIds rows row.relation) :
    Sampled prims collector (rows ++ [row]) := by
  have hsame : ∀ relation, seenIds (rows ++ [row]) relation = seenIds rows relation := by
    intro relation
    rw [seenIds_concat hrow]
    split
    · next hrelation => rw [hrelation, Finset.insert_eq_of_mem hseen]
    · rfl
  refine ⟨?_, ?_, h.priorities, ?_⟩
  · intro id entry hentry
    obtain ⟨hid, hmem, hrelations⟩ := h.entries id entry hentry
    rw [offered_append]
    exact ⟨hid, List.mem_append_left _ hmem, hrelations⟩
  · intro hfull relation
    rw [hsame, h.full hfull]
  · intro hrepresentative relation
    rw [hsame]
    exact h.bottom hrepresentative relation

/-- The entries after a new document is selected. -/
theorem entries_insert (hrow : row.document = some document)
    (hentries : ∀ id entry, selected.get? id = some entry →
      entry.document.documentId = id ∧ (entry.primaryRelation, entry.document) ∈ offered rows ∧
        entry.relations = {entry.primaryRelation}) :
    ∀ id entry, (selected.insert document.documentId
        ⟨document, row.relation, {row.relation}⟩).get? id = some entry →
      entry.document.documentId = id ∧
        (entry.primaryRelation, entry.document) ∈ offered (rows ++ [row]) ∧
        entry.relations = {entry.primaryRelation} := by
  intro id entry hentry
  rw [offered_append, offered_singleton hrow]
  rw [SortedMap.get?_insert] at hentry
  by_cases hid : id = document.documentId
  · rw [if_pos hid] at hentry
    obtain rfl := Option.some.inj hentry
    exact ⟨hid.symm, List.mem_append_right _ (List.mem_singleton.mpr rfl), rfl⟩
  · rw [if_neg hid] at hentry
    obtain ⟨hid', hmem, hrelations⟩ := hentries id entry hentry
    exact ⟨hid', List.mem_append_left _ hmem, hrelations⟩

/-- The collector with a new document selected. -/
def DocumentCollector.select (collector : DocumentCollector) (document : FastDocument)
    (relation : String) : DocumentCollector :=
  { collector with
    selected := collector.selected.insert document.documentId ⟨document, relation, {relation}⟩ }

/-- A full build selects every new document. -/
theorem Sampled.select_full (h : Sampled prims collector rows)
    (hfull : collector.selection = .full) (hrow : row.document = some document)
    (hnew : collector.selected.get? document.documentId = none) :
    Sampled prims (collector.select document row.relation) (rows ++ [row]) := by
  have hnot : ∀ {P : Prop}, collector.selection = .representative → P := by
    intro P hrepresentative
    rw [hfull] at hrepresentative
    cases hrepresentative
  refine ⟨entries_insert hrow h.entries, ?_, fun hr => hnot hr, fun hr => hnot hr⟩
  intro _ relation
  rw [seenIds_concat hrow]
  show retainedIn (collector.selected.insert _ _) relation = _
  rw [retainedIn_insert hnew]
  exact if_congr Iff.rfl (congrArg _ (h.full hfull relation)) (h.full hfull relation)

/-- The key of a document that is not selected is not among the priorities. -/
theorem Sampled.key_notMem (h : Sampled prims collector rows)
    (hrepresentative : collector.selection = .representative)
    (hnew : collector.selected.get? id = none) (relation : String) :
    sampleKey prims collector.sampleSeed id ∉ collector.prioritiesOf relation := by
  rw [h.priorities hrepresentative, Finset.mem_image]
  rintro ⟨id', hid', hkey⟩
  obtain rfl := sampleKey_injective _ hkey
  obtain ⟨entry, hentry, -⟩ := mem_retainedIn.mp hid'
  rw [hnew] at hentry
  cases hentry

/-- The sample after the row, when the ids retained in the relation of the row become
`kept` and nothing changes elsewhere. -/
theorem sampled_of_relation {collector' : DocumentCollector} (kept : Finset String)
    (h : Sampled prims collector rows) (hrepresentative : collector.selection = .representative)
    (hrow : row.document = some document)
    (hselection : collector'.selection = collector.selection)
    (hseed : collector'.sampleSeed = collector.sampleSeed)
    (hentries : ∀ id entry, collector'.selected.get? id = some entry →
      entry.document.documentId = id ∧
        (entry.primaryRelation, entry.document) ∈ offered (rows ++ [row]) ∧
        entry.relations = {entry.primaryRelation})
    (hretained : ∀ relation, collector'.retainedOf relation =
      if relation = row.relation then kept else collector.retainedOf relation)
    (hpriorities : ∀ relation, collector'.prioritiesOf relation =
      if relation = row.relation then kept.image (sampleKey prims collector.sampleSeed)
      else collector.prioritiesOf relation)
    (hbottom : IsBottom representativeRelationCap
      ((insert document.documentId (seenIds rows row.relation)).image
        (sampleKey prims collector.sampleSeed))
      (kept.image (sampleKey prims collector.sampleSeed))) :
    Sampled prims collector' (rows ++ [row]) := by
  refine ⟨hentries, ?_, ?_, ?_⟩
  · intro hfull
    rw [hselection, hrepresentative] at hfull
    cases hfull
  · intro _ relation
    rw [hpriorities, hretained, hseed]
    split
    · rfl
    · exact h.priorities hrepresentative relation
  · intro _ relation
    rw [hretained, hseed, seenIds_concat hrow]
    split
    · next hrelation =>
      rw [hrelation]
      exact hbottom
    · exact h.bottom hrepresentative relation

/-- **A new document.** It is given a place or dropped, and in both cases the sample is
that of the rows with the new one. -/
theorem admit_sampled (h : Sampled prims collector rows) (hrow : row.document = some document)
    (hnew : collector.selected.get? document.documentId = none) :
    ∃ place, collector.admit prims row.relation document.documentId = .ok place ∧
      match place with
      | none => Sampled prims collector (rows ++ [row])
      | some admitted =>
        (∃ selected priorities, admitted =
          { collector with selected := selected, priorities := priorities }) ∧
        Sampled prims (admitted.select document row.relation) (rows ++ [row]) := by
  unfold DocumentCollector.admit
  split
  · next hselection =>
    exact ⟨some collector, rfl, ⟨_, _, rfl⟩, h.select_full hselection hrow hnew⟩
  · next hselection =>
    dsimp only
    have hbottom := h.bottom hselection row.relation
    have hpriorities := h.priorities hselection row.relation
    have hkey := h.key_notMem hselection hnew row.relation
    rw [hpriorities] at hkey
    by_cases hcap : (collector.prioritiesOf row.relation).card = representativeRelationCap
    · have hfull := hcap
      rw [hpriorities] at hfull
      have hnonempty : (collector.prioritiesOf row.relation).Nonempty :=
        Finset.card_pos.mp (by rw [hcap]; decide)
      obtain ⟨worst, hworst⟩ := exists_greatest hnonempty
      obtain ⟨hmem, hgreatest⟩ := greatest_eq_some.mp hworst
      rw [hpriorities] at hmem hgreatest
      simp only [hcap, if_true, hworst, orThrow, ok_bind]
      by_cases hle : worst ≤ sampleKey prims collector.sampleSeed document.documentId
      · -- not among the smallest: dropped
        rw [if_pos hle]
        refine ⟨none, rfl, ?_⟩
        have habove := hbottom.insert_of_le hfull fun key hmem' =>
          lt_of_le_of_ne ((hgreatest key hmem').trans hle) fun heq => hkey (heq ▸ hmem')
        refine sampled_of_relation (collector.retainedOf row.relation) h hselection hrow rfl rfl
          ?_ ?_ ?_ ?_
        · intro id entry hentry
          obtain ⟨hid, hmem', hrelations⟩ := h.entries id entry hentry
          rw [offered_append]
          exact ⟨hid, List.mem_append_left _ hmem', hrelations⟩
        · intro relation
          split
          · next hrelation => rw [hrelation]
          · rfl
        · intro relation
          split
          · next hrelation => rw [hrelation, hpriorities]
          · rfl
        · rwa [Finset.image_insert]
      · -- the greatest makes room
        rw [if_neg hle]
        refine ⟨_, rfl, ⟨_, _, rfl⟩, ?_⟩
        obtain ⟨evicted, hevicted, rfl⟩ := Finset.mem_image.mp hmem
        have hkept := hbottom.replace hfull hkey hmem hgreatest (not_le.mp hle)
        have hid : document.documentId ≠ evicted := by
          rintro rfl
          exact hle le_rfl
        have hnew' : (collector.selected.erase evicted).get? document.documentId = none := by
          rw [SortedMap.get?_erase, hnew]
          split <;> rfl
        refine sampled_of_relation
          (insert document.documentId ((collector.retainedOf row.relation).erase evicted))
          h hselection hrow rfl rfl ?_ ?_ ?_ ?_
        · refine entries_insert hrow ?_
          intro id entry hentry
          rw [SortedMap.get?_erase] at hentry
          split at hentry
          · cases hentry
          · exact h.entries id entry hentry
        · intro relation
          show retainedIn ((collector.selected.erase evicted).insert _ _) relation = _
          rw [retainedIn_insert hnew', retainedIn_erase]
          split
          · next hrelation => rw [hrelation]; rfl
          · next hrelation =>
            exact Finset.erase_eq_of_notMem (retainedIn_disjoint hevicted hrelation)
        · intro relation
          show ((collector.priorities.insert row.relation _).get? relation).getD ∅ = _
          rw [SortedMap.get?_insert]
          split
          · rw [Option.getD_some, hpriorities, Finset.image_insert,
              Finset.image_erase (sampleKey_injective _)]
          · rfl
        · rwa [Finset.image_insert, Finset.image_insert,
            Finset.image_erase (sampleKey_injective _)]
    · -- there is room
      rw [if_neg hcap]
      refine ⟨_, rfl, ⟨_, _, rfl⟩, ?_⟩
      have hroom : ((collector.retainedOf row.relation).image
          (sampleKey prims collector.sampleSeed)).card < representativeRelationCap := by
        rw [hpriorities] at hcap
        have hcard := hbottom.card_eq
        omega
      refine sampled_of_relation (insert document.documentId (collector.retainedOf row.relation))
        h hselection hrow rfl rfl (entries_insert hrow h.entries) ?_ ?_ ?_
      · intro relation
        show retainedIn (collector.selected.insert _ _) relation = _
        rw [retainedIn_insert hnew]
        split
        · next hrelation => rw [hrelation]; rfl
        · rfl
      · intro relation
        show ((collector.priorities.insert row.relation _).get? relation).getD ∅ = _
        rw [SortedMap.get?_insert]
        split
        · rw [Option.getD_some, hpriorities, Finset.image_insert]
        · rfl
      · rw [Finset.image_insert, Finset.image_insert]
        exact hbottom.insert_of_card_lt hroom

theorem Accounted.seenOf_eq (h : Accounted selection seed relations collector rows)
    (relation : String) : collector.seenOf relation = seenIds rows relation := by
  rw [DocumentCollector.seenOf, h.seen]
  by_cases hsome : relation ∈ relations ∨ (seenIds rows relation).Nonempty
  · rw [if_pos hsome, Option.getD_some]
  · rw [if_neg hsome, Option.getD_none]
    rw [not_or, Finset.not_nonempty_iff_eq_empty] at hsome
    exact hsome.2.symm

/-- A row without a document is only counted. -/
theorem Accounted.concat_none (h : Accounted selection seed relations collector rows)
    (hrow : row.document = none) :
    Accounted selection seed relations (collector.observeSourceRow row.relation false
      row.eventTimeAvailability row.eventTimeMs) (rows ++ [row]) where
  selection_eq := h.selection_eq
  seed_eq := h.seed_eq
  seen relation := by
    rw [seenIds_concat_none hrow]
    exact h.seen relation
  scanned := by
    rw [List.length_append, List.length_singleton, ← h.scanned]
    rfl
  byRelation := by
    rw [List.map_append, List.map_singleton, tally_concat, ← h.byRelation]
    rfl
  structuredOnly := by
    have hfilter : [row].filter (·.document.isNone) = [row] := by simp [hrow]
    rw [List.filter_append, hfilter, List.map_append, List.map_singleton, tally_concat,
      ← h.structuredOnly]
    rfl
  semantic := by
    rw [offered_append, offered_singleton_none hrow, List.append_nil]
    exact h.semantic

/-- The collector with a row and its document counted, before the document is offered. -/
def DocumentCollector.count (collector : DocumentCollector) (row : SourceRow)
    (document : FastDocument) : DocumentCollector :=
  (collector.observeSourceRow row.relation true row.eventTimeAvailability
    row.eventTimeMs).noteOccurrence document row.relation

theorem Accounted.concat_some (h : Accounted selection seed relations collector rows)
    (hrow : row.document = some document) :
    Accounted selection seed relations (collector.count row document) (rows ++ [row]) where
  selection_eq := h.selection_eq
  seed_eq := h.seed_eq
  seen relation := by
    have hseen := h.seenOf_eq row.relation
    show (collector.seenByRelation.insert row.relation
      (insert document.documentId (collector.seenOf row.relation))).get? relation = _
    rw [hseen, SortedMap.get?_insert, seenIds_concat hrow]
    by_cases hrelation : relation = row.relation
    · subst hrelation
      rw [if_pos rfl, if_pos rfl, if_pos (Or.inr (Finset.insert_nonempty _ _))]
    · rw [if_neg hrelation, if_neg hrelation]
      exact h.seen relation
  scanned := by
    rw [List.length_append, List.length_singleton, ← h.scanned]
    rfl
  byRelation := by
    rw [List.map_append, List.map_singleton, tally_concat, ← h.byRelation]
    rfl
  structuredOnly := by
    have hfilter : [row].filter (·.document.isNone) = [] := by simp [hrow]
    rw [List.filter_append, hfilter, List.append_nil, ← h.structuredOnly]
    rfl
  semantic := by
    rw [offered_append, offered_singleton hrow, List.length_append, List.length_singleton,
      ← h.semantic]
    rfl

/-- A document that is selected passes the check against the selected one, and its entry
stays as it is. -/
theorem Sampled.entry_eq (h : Sampled prims collector rows) (hrow : row.document = some document)
    (hconsistent : ConsistentRows (rows ++ [row])) {entry : SelectedDocument}
    (hentry : collector.selected.get? document.documentId = some entry) :
    entry.primaryRelation = row.relation ∧ contentOf entry.document = contentOf document ∧
      entry.relations = {row.relation} ∧ document.documentId ∈ seenIds rows row.relation := by
  obtain ⟨hid, hmem, hrelations⟩ := h.entries _ _ hentry
  rw [ConsistentRows, offered_append, offered_singleton hrow] at hconsistent
  obtain ⟨hrelation, hcontent⟩ := hconsistent _ (List.mem_append_left _ hmem)
    (row.relation, document) (List.mem_append_right _ (List.mem_singleton.mpr rfl)) hid
  simp only at hrelation hcontent
  rw [hrelation] at hmem hrelations
  exact ⟨hrelation, hcontent, hrelations, mem_seenIds.mpr ⟨_, hmem, hid⟩⟩

/-- A document that was counted is taken, and the invariant holds with it. -/
theorem offer_reached (hsampled : Sampled prims collector rows)
    (haccounted : Accounted selection seed relations collector (rows ++ [row]))
    (hrow : row.document = some document) (hconsistent : ConsistentRows (rows ++ [row])) :
    ∃ collector', collector.offer prims document row.relation = .ok collector' ∧
      Reached prims selection seed relations collector' (rows ++ [row]) := by
  rw [DocumentCollector.offer]
  cases hget : collector.selected.get? document.documentId with
  | some entry =>
    -- the document is selected: the checks pass and nothing changes
    obtain ⟨hrelation, hcontent, hrelations, hseen⟩ := hsampled.entry_eq hrow hconsistent hget
    have hfields : entry.document.documentSha256 = document.documentSha256 ∧
        entry.document.semanticText = document.semanticText ∧
        entry.document.documentKind = document.documentKind ∧
        entry.document.facetsJson = document.facetsJson := by
      simp only [contentOf, FastDocument.mk.injEq] at hcontent
      exact ⟨hcontent.2.1, hcontent.2.2.2.1, hcontent.2.2.1, hcontent.2.2.2.2.1⟩
    have hsame : collector.selected.insert document.documentId
        { entry with relations := insert row.relation entry.relations } = collector.selected := by
      refine SortedMap.ext_get? ?_
      intro id
      have hunion : insert row.relation entry.relations = entry.relations := by
        rw [hrelations]
        exact Finset.insert_eq_of_mem (Finset.mem_singleton_self _)
      rw [SortedMap.get?_insert, hunion]
      split
      · next hid => rw [hid, hget]
      · rfl
    simp only [hsame]
    rw [throwIf_bind_of_not (by simpa using hrelation),
      throwIf_bind_of_not (by simpa [not_or] using hfields)]
    exact ⟨collector, rfl, hsampled.concat_of_mem hrow hseen, haccounted⟩
  | none =>
    obtain ⟨place, hplace, hafter⟩ := admit_sampled hsampled hrow hget
    simp only [hplace, ok_bind]
    cases place with
    | none => exact ⟨collector, rfl, hafter, haccounted⟩
    | some admitted =>
      obtain ⟨⟨chosen, priorities, rfl⟩, hafter⟩ := hafter
      exact ⟨_, rfl, hafter, haccounted.selection_eq, haccounted.seed_eq, haccounted.seen,
        haccounted.scanned, haccounted.byRelation, haccounted.structuredOnly,
        haccounted.semantic⟩

/-- **One row.** On consistent rows the collector accepts the next one, and the invariant
holds of the rows with it. -/
theorem observe_reached (h : Reached prims selection seed relations collector rows)
    (hconsistent : ConsistentRows (rows ++ [row])) :
    ∃ collector', collector.observe prims row = .ok collector' ∧
      Reached prims selection seed relations collector' (rows ++ [row]) := by
  obtain ⟨hsampled, haccounted⟩ := h
  unfold DocumentCollector.observe
  cases hrow : row.document with
  | none =>
    refine ⟨_, rfl, ⟨?_, ?_, hsampled.priorities, ?_⟩, haccounted.concat_none hrow⟩
    · rw [offered_append, offered_singleton_none hrow, List.append_nil]
      exact hsampled.entries
    · intro hfull relation
      rw [seenIds_concat_none hrow]
      exact hsampled.full hfull relation
    · intro hrepresentative relation
      rw [seenIds_concat_none hrow]
      exact hsampled.bottom hrepresentative relation
  | some document =>
    -- counting does not touch the sample
    have hcounted : Sampled prims (collector.count row document) rows :=
      ⟨hsampled.entries, hsampled.full, hsampled.priorities, hsampled.bottom⟩
    exact offer_reached hcounted (haccounted.concat_some hrow) hrow hconsistent

/-- **A run.** On consistent rows the pass succeeds and ends in the invariant. -/
theorem collectRows_reached (prims : Pipeline.Primitives) (selection : BuildSelection)
    (seed : String) (relations : List String) {rows : List SourceRow} (h : ConsistentRows rows) :
    ∃ collector, collectRows prims selection seed relations rows = .ok collector ∧
      Reached prims selection seed relations collector rows := by
  refine foldlM_total (P := fun rows collector =>
    Reached prims selection seed relations collector rows) (new_reached _ _ _ _) ?_
  intro before row after collector hrows hreached
  refine observe_reached hreached (@ConsistentRows.left _ after ?_)
  rwa [List.append_assoc, List.singleton_append, ← hrows]

/-! ### The result -/

/-- How many of a relation are selected. -/
theorem count_primaryRelation (selected : SortedMap String SelectedDocument) (relation : String) :
    (selected.values.map (·.primaryRelation)).count relation =
      (retainedIn selected relation).card := by
  have hnodup : ((selected.entries.filter (·.2.primaryRelation = relation)).map Prod.fst).Nodup :=
    selected.nodup_keys.sublist (List.filter_sublist.map _)
  rw [retainedIn, List.toFinset_card_of_nodup hnodup, List.length_map, SortedMap.values,
    List.map_map, List.count_eq_countP, List.countP_map, List.countP_eq_length_filter]
  rfl

theorem get?_relationBudgets (h : Accounted selection seed relations collector rows)
    (relation : String) :
    collector.relationBudgets.get? relation =
      if (seenIds rows relation).card = 0 then none
      else some (selection.budget (seenIds rows relation).card) := by
  have hnodup : ((collector.sourceDocumentsByRelation.entries.filter (0 < ·.2)).map
      Prod.fst).Nodup :=
    collector.sourceDocumentsByRelation.nodup_keys.sublist (List.filter_sublist.map _)
  have hget : ∀ budget, collector.relationBudgets.get? relation = some budget ↔
      (seenIds rows relation).card ≠ 0 ∧ selection.budget (seenIds rows relation).card = budget := by
    intro budget
    rw [DocumentCollector.relationBudgets, SortedMap.get?_ofList
      (by rw [List.map_map]; exact hnodup), List.mem_map]
    constructor
    · rintro ⟨⟨relation', count⟩, hmem, hpair⟩
      obtain ⟨rfl, rfl⟩ := Prod.mk.inj hpair
      obtain ⟨hentry, hpos⟩ := List.mem_filter.mp hmem
      have hcount := SortedMap.get?_eq_some_iff.mpr hentry
      rw [DocumentCollector.sourceDocumentsByRelation, SortedMap.get?_mapValues, h.seen] at hcount
      split at hcount
      · obtain rfl := Option.some.inj hcount
        rw [h.selection_eq]
        exact ⟨Nat.pos_iff_ne_zero.mp (of_decide_eq_true hpos), rfl⟩
      · cases hcount
    · rintro ⟨hne, rfl⟩
      refine ⟨(relation, (seenIds rows relation).card), List.mem_filter.mpr ⟨?_, ?_⟩, ?_⟩
      · rw [← SortedMap.get?_eq_some_iff, DocumentCollector.sourceDocumentsByRelation,
          SortedMap.get?_mapValues, h.seen, if_pos (Or.inr (Finset.card_ne_zero.mp hne))]
        rfl
      · exact decide_eq_true (Nat.pos_of_ne_zero hne)
      · rw [h.selection_eq]
  split
  · next hzero =>
    cases hbudget : collector.relationBudgets.get? relation with
    | none => rfl
    | some budget => exact absurd hzero ((hget budget).mp hbudget).1
  · next hne => exact (hget _).mpr ⟨hne, rfl⟩

/-- The retained documents of a relation are as many as its budget. -/
theorem Sampled.card_retainedOf (h : Sampled prims collector rows) (relation : String) :
    (collector.retainedOf relation).card =
      collector.selection.budget (seenIds rows relation).card := by
  cases hselection : collector.selection with
  | full => rw [h.full hselection]; rfl
  | representative =>
    have hcard := (h.bottom hselection relation).card_eq
    rw [Finset.card_image_of_injective _ (sampleKey_injective _),
      Finset.card_image_of_injective _ (sampleKey_injective _)] at hcard
    rw [hcard, min_comm]
    rfl

/-- **The budget check never fails.** -/
theorem Reached.selectedByRelation_eq (h : Reached prims selection seed relations collector rows) :
    collector.selectedByRelation = collector.relationBudgets := by
  refine SortedMap.ext_get? ?_
  intro relation
  have hcard := h.sampled.card_retainedOf relation
  rw [h.accounted.selection_eq] at hcard
  rw [get?_relationBudgets h.accounted, DocumentCollector.selectedByRelation, get?_tally,
    count_primaryRelation]
  show (if (collector.retainedOf relation).card = 0 then none
    else some (collector.retainedOf relation).card) = _
  rw [hcard]
  refine if_congr ?_ rfl rfl
  cases selection with
  | full => exact Iff.rfl
  | representative =>
    show min _ representativeRelationCap = 0 ↔ _
    rw [representativeRelationCap]
    omega

/-- The selected entries stand in the order of the ids of their documents. -/
theorem Sampled.map_documentId (h : Sampled prims collector rows) :
    collector.selected.values.map (·.document.documentId) = collector.selected.keys := by
  rw [SortedMap.values, List.map_map, SortedMap.keys]
  refine List.map_congr_left ?_
  rintro ⟨id, entry⟩ hmem
  exact (h.entries id entry (SortedMap.get?_eq_some_iff.mpr hmem)).1

/-- An entry as it is returned, but for its number. -/
def returnedDocument (writeRelations : Finset String → String) (entry : SelectedDocument) :
    FastDocument :=
  { contentOf entry.document with relationsJson := writeRelations entry.relations }

def numbered (p : FastDocument × ℕ) : FastDocument :=
  { p.1 with vectorOrdinal := Fin.ofNat (2 ^ 64) p.2 }

/-- **What is returned** is the map of entries, its values numbered in key order. -/
theorem Sampled.sampledDocuments_eq (h : Sampled prims collector rows)
    (writeRelations : Finset String → String) :
    collector.sampledDocuments writeRelations =
      (collector.selected.mapValues (returnedDocument writeRelations)).values.zipIdx.map
        numbered := by
  have hids := h.map_documentId
  have hsorted : collector.selected.keys.Pairwise (· ≤ ·) :=
    (List.pairwise_map.mpr collector.selected.sorted).imp le_of_lt
  rw [← hids, List.pairwise_map] at hsorted
  have hsort : sortBy (fun document : FastDocument => document.documentId)
      (collector.selected.values.map fun entry : SelectedDocument =>
        { entry.document with relationsJson := writeRelations entry.relations }) =
      collector.selected.values.map fun entry =>
        { entry.document with relationsJson := writeRelations entry.relations } :=
    sortBy_of_pairwise (List.pairwise_map.mpr hsorted)
  have hvalues : (collector.selected.mapValues (returnedDocument writeRelations)).values =
      collector.selected.values.map (returnedDocument writeRelations) := by
    rw [SortedMap.values, SortedMap.mapValues, SortedMap.values, List.map_map, List.map_map]
    rfl
  show (sortBy (fun document : FastDocument => document.documentId)
    (collector.selected.values.map fun entry : SelectedDocument =>
      { entry.document with relationsJson := writeRelations entry.relations })).zipIdx.map
    numbered = _
  rw [hsort, hvalues, List.zipIdx_map, List.zipIdx_map, List.map_map, List.map_map]
  rfl

theorem Sampled.length_le (h : Sampled prims collector rows) :
    collector.selected.values.length ≤ rows.length := by
  have hsubset : collector.selected.keys ⊆ (offered rows).map (·.2.documentId) := by
    intro id hid
    obtain ⟨entry, hentry⟩ := SortedMap.mem_keys_iff.mp hid
    obtain ⟨hid', hmem, -⟩ := h.entries id entry hentry
    exact List.mem_map.mpr ⟨_, hmem, hid'⟩
  have hle := (collector.selected.nodup_keys.subperm hsubset).length_le
  rw [List.length_map] at hle
  have hoffered : (offered rows).length ≤ rows.length := List.length_filterMap_le _ _
  rw [SortedMap.values, List.length_map]
  rw [SortedMap.keys, List.length_map] at hle
  exact hle.trans hoffered

/-- **The numbering.** The documents stand in ascending order of their ids, are numbered
from zero, and are those retained. -/
theorem Reached.numbering (h : Reached prims selection seed relations collector rows)
    (hlength : rows.length < 2 ^ 64) (writeRelations : Finset String → String) :
    let documents := collector.sampledDocuments writeRelations
    (documents.map (·.documentId)).Pairwise (· < ·) ∧
      documents.map (fun document => (document.vectorOrdinal : ℕ)) =
        List.range documents.length ∧
      ∀ id, id ∈ documents.map (·.documentId) ↔
        ∃ relation, id ∈ collector.retainedOf relation := by
  intro documents
  have hids : documents.map (·.documentId) = collector.selected.keys := by
    show (collector.sampledDocuments writeRelations).map (·.documentId) = _
    rw [h.sampled.sampledDocuments_eq, List.map_map, ← h.sampled.map_documentId]
    have hcomp : ((fun document : FastDocument => document.documentId) ∘ numbered) =
        (fun document : FastDocument => document.documentId) ∘ Prod.fst := rfl
    rw [hcomp, ← List.map_map, List.zipIdx_map_fst, SortedMap.values, SortedMap.mapValues,
      SortedMap.values, List.map_map, List.map_map, List.map_map]
    rfl
  refine ⟨?_, ?_, ?_⟩
  · rw [hids]
    exact List.pairwise_map.mpr collector.selected.sorted
  · have hlen : documents.length = collector.selected.values.length := by
      rw [← @List.length_map _ _ documents (·.documentId), hids, SortedMap.keys, SortedMap.values,
        List.length_map, List.length_map]
    have hbound : documents.length < 2 ^ 64 := by
      rw [hlen]
      exact h.sampled.length_le.trans_lt hlength
    have hdocuments : documents =
        (collector.selected.mapValues (returnedDocument writeRelations)).values.zipIdx.map
          numbered := h.sampled.sampledDocuments_eq writeRelations
    generalize (collector.selected.mapValues (returnedDocument writeRelations)).values = values
      at hdocuments
    have hvalues : values.length = documents.length := by
      rw [hdocuments, List.length_map, List.length_zipIdx]
    rw [← hvalues, List.range_eq_range', ← List.zipIdx_map_snd, hdocuments, List.map_map]
    refine List.map_congr_left ?_
    intro p hp
    -- a number below `2 ^ 64` is stored as it is
    have hnumber : p.2 < 2 ^ 64 := by
      have hlt := List.snd_lt_of_mem_zipIdx hp
      omega
    exact Nat.mod_eq_of_lt hnumber
  · intro id
    rw [hids, SortedMap.mem_keys_iff]
    constructor
    · rintro ⟨entry, hentry⟩
      exact ⟨entry.primaryRelation, mem_retainedIn.mpr ⟨entry, hentry, rfl⟩⟩
    · rintro ⟨relation, hid⟩
      obtain ⟨entry, hentry, -⟩ := mem_retainedIn.mp hid
      exact ⟨entry, hentry⟩

/-! ### What the result depends on -/

/-- Two sequences of rows offer the same documents in the same relations. -/
def SameDocuments (rows rows' : List SourceRow) : Prop :=
  ∀ relation content, (∃ document, (relation, document) ∈ offered rows ∧
      contentOf document = content) ↔
    ∃ document, (relation, document) ∈ offered rows' ∧ contentOf document = content

variable {rows' : List SourceRow} {collector' : DocumentCollector}

theorem SameDocuments.symm (h : SameDocuments rows rows') : SameDocuments rows' rows :=
  fun relation content => (h relation content).symm

theorem SameDocuments.seenIds_eq (h : SameDocuments rows rows') (relation : String) :
    seenIds rows relation = seenIds rows' relation := by
  have hsubset : ∀ {rows rows' : List SourceRow}, SameDocuments rows rows' →
      seenIds rows relation ⊆ seenIds rows' relation := by
    intro rows rows' h id hid
    obtain ⟨document, hmem, hid⟩ := mem_seenIds.mp hid
    obtain ⟨document', hmem', hcontent⟩ := (h relation _).mp ⟨document, hmem, rfl⟩
    refine mem_seenIds.mpr ⟨document', hmem', ?_⟩
    have hids : (contentOf document').documentId = (contentOf document).documentId := by
      rw [hcontent]
    exact hids.trans hid
  exact (hsubset h).antisymm (hsubset h.symm)

/-- The retained ids depend only on the documents offered. -/
theorem Reached.retainedOf_eq (h : Reached prims selection seed relations collector rows)
    (h' : Reached prims selection seed relations collector' rows')
    (hsame : SameDocuments rows rows') (relation : String) :
    collector.retainedOf relation = collector'.retainedOf relation := by
  have hseen := hsame.seenIds_eq relation
  cases hselection : selection with
  | full =>
    rw [h.sampled.full (h.accounted.selection_eq.trans hselection),
      h'.sampled.full (h'.accounted.selection_eq.trans hselection), hseen]
  | representative =>
    have hbottom := h.sampled.bottom (h.accounted.selection_eq.trans hselection) relation
    have hbottom' := h'.sampled.bottom (h'.accounted.selection_eq.trans hselection) relation
    rw [h.accounted.seed_eq, hseen] at hbottom
    rw [h'.accounted.seed_eq] at hbottom'
    exact Finset.image_injective (sampleKey_injective seed) (hbottom.unique hbottom')

/-- An entry of one collector has its like in the other. -/
theorem Reached.entry_of_same (h : Reached prims selection seed relations collector rows)
    (h' : Reached prims selection seed relations collector' rows')
    (hsame : SameDocuments rows rows') (hconsistent : ConsistentRows rows') {entry : SelectedDocument}
    (hentry : collector.selected.get? id = some entry)
    (writeRelations : Finset String → String) :
    ∃ entry', collector'.selected.get? id = some entry' ∧
      returnedDocument writeRelations entry' = returnedDocument writeRelations entry := by
  have hretained : id ∈ collector.retainedOf entry.primaryRelation :=
    mem_retainedIn.mpr ⟨entry, hentry, rfl⟩
  rw [h.retainedOf_eq h' hsame] at hretained
  obtain ⟨entry', hentry', hrelation⟩ := mem_retainedIn.mp hretained
  obtain ⟨hid, hmem, hrelations⟩ := h.sampled.entries id entry hentry
  obtain ⟨hid', hmem', hrelations'⟩ := h'.sampled.entries id entry' hentry'
  -- the document of the one entry was also offered to the other collector
  obtain ⟨document, hdocument, hcontent⟩ := (hsame _ _).mp ⟨_, hmem, rfl⟩
  have hdocumentId : document.documentId = id := by
    have hids : (contentOf document).documentId = (contentOf entry.document).documentId := by
      rw [hcontent]
    exact hids.trans hid
  have hsameContent := (hconsistent _ hmem' _ hdocument (hid'.trans hdocumentId.symm)).2
  refine ⟨entry', hentry', ?_⟩
  rw [returnedDocument, returnedDocument, hrelations, hrelations', hrelation,
    show contentOf entry'.document = contentOf entry.document from hsameContent.trans hcontent]

theorem Reached.sampledDocuments_eq (h : Reached prims selection seed relations collector rows)
    (h' : Reached prims selection seed relations collector' rows')
    (hsame : SameDocuments rows rows') (hconsistent : ConsistentRows rows)
    (hconsistent' : ConsistentRows rows') (writeRelations : Finset String → String) :
    collector.sampledDocuments writeRelations = collector'.sampledDocuments writeRelations := by
  rw [h.sampled.sampledDocuments_eq, h'.sampled.sampledDocuments_eq]
  refine congrArg (fun values : SortedMap String FastDocument =>
    values.values.zipIdx.map numbered) (SortedMap.ext_get? ?_)
  intro id
  rw [SortedMap.get?_mapValues, SortedMap.get?_mapValues]
  cases hget : collector.selected.get? id with
  | some entry =>
    obtain ⟨entry', hget', hentry⟩ := h.entry_of_same h' hsame hconsistent' hget writeRelations
    rw [hget', Option.map_some, Option.map_some, hentry]
  | none =>
    cases hget' : collector'.selected.get? id with
    | none => rfl
    | some entry' =>
      obtain ⟨entry, hget'', -⟩ :=
        h'.entry_of_same h hsame.symm hconsistent hget' writeRelations
      rw [hget] at hget''
      cases hget''

theorem Reached.relationBudgets_eq (h : Reached prims selection seed relations collector rows)
    (h' : Reached prims selection seed relations collector' rows')
    (hsame : SameDocuments rows rows') :
    collector.relationBudgets = collector'.relationBudgets := by
  refine SortedMap.ext_get? ?_
  intro relation
  rw [get?_relationBudgets h.accounted, get?_relationBudgets h'.accounted,
    hsame.seenIds_eq relation]

theorem Reached.sourceDocumentsByRelation_eq
    (h : Reached prims selection seed relations collector rows)
    (h' : Reached prims selection seed relations collector' rows')
    (hsame : SameDocuments rows rows') :
    collector.sourceDocumentsByRelation = collector'.sourceDocumentsByRelation := by
  refine SortedMap.ext_get? ?_
  intro relation
  rw [DocumentCollector.sourceDocumentsByRelation, DocumentCollector.sourceDocumentsByRelation,
    SortedMap.get?_mapValues, SortedMap.get?_mapValues, h.accounted.seen, h'.accounted.seen,
    hsame.seenIds_eq relation]

/-! ### The whole pass -/

/-- The pass over rows that fit the counters ends without an error. -/
theorem Reached.finish_eq_ok (h : Reached prims selection seed relations collector rows)
    (hlength : rows.length < 2 ^ 64) (writeRelations : Finset String → String) :
    ∃ accounting, collector.finish writeRelations =
        .ok (collector.sampledDocuments writeRelations, accounting) ∧
      accounting.sourceDocumentsByRelation = collector.sourceDocumentsByRelation ∧
      accounting.relationBudgets = collector.relationBudgets ∧
      accounting.selectedByRelation = collector.relationBudgets := by
  have hsplit : (offered rows).length + (rows.filter (·.document.isNone)).length =
      rows.length := by
    clear h hlength
    induction rows with
    | nil => rfl
    | cons row rows ih =>
      cases hrow : row.document with
      | none =>
        rw [offered, List.filterMap_cons_none (by rw [hrow]; rfl),
          List.filter_cons_of_pos (by simp [hrow]), List.length_cons, List.length_cons]
        exact congrArg (· + 1) ih
      | some document =>
        rw [offered, List.filterMap_cons_some (by rw [hrow]; rfl),
          List.filter_cons_of_neg (by simp [hrow]), List.length_cons, List.length_cons]
        show (offered rows).length + 1 + _ = _
        omega
  have hstructured : collector.structuredOnlyByRelation.values.sum =
      (rows.filter (·.document.isNone)).length := by
    rw [h.accounted.structuredOnly, sum_values_tally, List.length_map]
  have hadd : checkedAdd 64 collector.projectedSemanticOccurrences
      collector.structuredOnlyByRelation.values.sum = some rows.length := by
    rw [hstructured, h.accounted.semantic, checkedAdd_eq_some]
    exact ⟨by omega, hsplit⟩
  have hrows : collector.sourceRowsByRelation.values.sum = rows.length := by
    rw [h.accounted.byRelation, sum_values_tally, List.length_map]
  rw [DocumentCollector.finish, throwIf_bind_of_not (by simpa using h.selectedByRelation_eq)]
  simp only [hadd, orThrow, ok_bind, hrows, h.accounted.scanned]
  rw [throwIf_bind_of_not (by simp)]
  exact ⟨_, rfl, rfl, rfl, h.selectedByRelation_eq⟩

/-- Per relation, a collector holds all the ids seen, or the smallest of them. -/
structure BottomSampled (prims : Pipeline.Primitives) (selection : BuildSelection) (seed : String)
    (collector : DocumentCollector) (rows : List SourceRow) : Prop where
  full : selection = .full → ∀ relation, collector.retainedOf relation = seenIds rows relation
  representative : selection = .representative → ∀ relation,
    IsBottom representativeRelationCap ((seenIds rows relation).image (sampleKey prims seed))
      ((collector.retainedOf relation).image (sampleKey prims seed))

theorem Reached.bottomSampled (h : Reached prims selection seed relations collector rows) :
    BottomSampled prims selection seed collector rows := by
  obtain ⟨hsampled, haccounted⟩ := h
  obtain rfl := haccounted.seed_eq
  obtain rfl := haccounted.selection_eq
  exact ⟨hsampled.full, hsampled.bottom⟩

/-- What the pass over the rows comes to: what the collector holds after every prefix of
the rows, and what it returns at the end, which depends only on the documents offered. -/
structure ExactSample (prims : Pipeline.Primitives) (writeRelations : Finset String → String)
    (selection : BuildSelection) (seed : String) (relations : List String)
    (rows : List SourceRow) : Prop where
  prefixes : ∀ before after, rows = before ++ after → ∃ collector,
    collectRows prims selection seed relations before = .ok collector ∧
      BottomSampled prims selection seed collector before ∧
      collector.finish writeRelations ≠ .error relationBudgetMismatch
  finished : rows.length < 2 ^ 64 → ∃ collector documents accounting,
    collectRows prims selection seed relations rows = .ok collector ∧
    collector.finish writeRelations = .ok (documents, accounting) ∧
    (documents.map (·.documentId)).Pairwise (· < ·) ∧
    documents.map (fun document => (document.vectorOrdinal : ℕ)) = List.range documents.length ∧
    (∀ id, id ∈ documents.map (·.documentId) ↔
      ∃ relation, id ∈ collector.retainedOf relation) ∧
    ∀ rows', ConsistentRows rows' → rows'.length < 2 ^ 64 → SameDocuments rows rows' →
      ∃ collector' accounting',
        collectRows prims selection seed relations rows' = .ok collector' ∧
        collector'.finish writeRelations = .ok (documents, accounting') ∧
        accounting'.sourceDocumentsByRelation = accounting.sourceDocumentsByRelation ∧
        accounting'.relationBudgets = accounting.relationBudgets ∧
        accounting'.selectedByRelation = accounting.selectedByRelation

/-- **The sampler keeps exactly the smallest documents of each relation.** After every
prefix of consistent rows the collector holds, per relation, the ids with the smallest
priorities (all ids, in a full build). The budget check passes, the documents are numbered
in the order of their ids, and the result depends only on the documents offered. -/
theorem collectRows_bottom_sample (prims : Pipeline.Primitives)
    (writeRelations : Finset String → String) (selection : BuildSelection) (seed : String)
    (relations : List String) (rows : List SourceRow) (h : ConsistentRows rows) :
    ExactSample prims writeRelations selection seed relations rows := by
  constructor
  · rintro before after rfl
    obtain ⟨collector, hrun, hreached⟩ :=
      collectRows_reached prims selection seed relations h.left
    refine ⟨collector, hrun, hreached.bottomSampled, ?_⟩
    rw [DocumentCollector.finish,
      throwIf_bind_of_not (by simpa using hreached.selectedByRelation_eq)]
    intro herror
    rcases bind_eq_error.mp herror with hcount | ⟨accounted, -, herror⟩
    · rw [orThrow_eq_error] at hcount
      exact absurd hcount.2 (by decide)
    · rcases bind_eq_error.mp herror with hreconcile | ⟨_, -, hdone⟩
      · rw [throwIf_eq_error] at hreconcile
        exact absurd hreconcile.2 (by decide)
      · cases hdone
  · intro hlength
    obtain ⟨collector, hrun, hreached⟩ := collectRows_reached prims selection seed relations h
    obtain ⟨accounting, hfinish, hsource, hbudgets, hselected⟩ :=
      hreached.finish_eq_ok hlength writeRelations
    obtain ⟨hascending, hordinals, hids⟩ := hreached.numbering hlength writeRelations
    refine ⟨collector, _, accounting, hrun, hfinish, hascending, hordinals, hids, ?_⟩
    intro rows' h' hlength' hsame
    obtain ⟨collector', hrun', hreached'⟩ :=
      collectRows_reached prims selection seed relations h'
    obtain ⟨accounting', hfinish', hsource', hbudgets', hselected'⟩ :=
      hreached'.finish_eq_ok hlength' writeRelations
    have hequal := hreached.relationBudgets_eq hreached' hsame
    refine ⟨collector', accounting', hrun', ?_, ?_, ?_, ?_⟩
    · rw [hfinish', hreached.sampledDocuments_eq hreached' hsame h h']
    · rw [hsource', hsource, hreached.sourceDocumentsByRelation_eq hreached' hsame]
    · rw [hbudgets', hbudgets, hequal]
    · rw [hselected', hselected, hequal]

end Runs

def sampleRow (id : String) : SourceRow :=
  ⟨"process", some ⟨id, "sha", "kind", "text of " ++ id, "{}", "[]", 0, 0⟩, .available, some 5⟩

/-- Three rows of two documents, one of them offered again. -/
theorem repeated_document_sampled :
    ExactSample Pipeline.samplePrimitives (fun _ => "[]") .representative "seed" ["process"]
      [sampleRow "a", sampleRow "b", sampleRow "a"] := by
  refine collectRows_bottom_sample _ _ _ _ _ _ ?_
  intro p hp q hq hid
  have hoffered : ∀ r ∈ offered [sampleRow "a", sampleRow "b", sampleRow "a"],
      r = ("process", ⟨r.2.documentId, "sha", "kind", "text of " ++ r.2.documentId, "{}", "[]",
        0, 0⟩) := by decide
  rw [hoffered p hp, hoffered q hq, hid]
  exact ⟨rfl, rfl⟩

end LivefireRag.Builder
