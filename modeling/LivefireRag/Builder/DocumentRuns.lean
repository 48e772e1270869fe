import Mathlib.Algebra.Order.BigOperators.Group.List
import Mathlib.Data.Finset.Lattice.Basic
import Mathlib.Data.Finset.Sort
import Mathlib.Data.List.TakeWhile
import Mathlib.Data.Prod.Lex
import LivefireRag.Lib.Grouping
import LivefireRag.Lib.Machine
import LivefireRag.Lib.Ranking
import LivefireRag.Builder.Basic

/-!
# Sorted document runs

Documents are accumulated in a bounded buffer that is written out, sorted by id,
as a run whenever it is full; at the end all runs are merged through a heap of
their next ids. `merge_eq_inMemory` shows that the merge visits the documents of the
single map that holds everything, in order and once each, whatever the bound of
the buffer.

A run is the list of its lines. A row is written as one line and read back by the
JSON reader, which are the parameter `codec`.
-/

namespace LivefireRag.Builder

open Machine Fallible Grouping Ranking Index

/-! ### Accumulators -/

structure DocumentAccumulator where
  document : FastDocument
  primaryRelation : String
  relations : Finset String
  deriving DecidableEq

structure DocumentRunRow where
  documentId : String
  accumulated : DocumentAccumulator
  deriving DecidableEq

def mergeDocumentAccumulators (documentId : String) (existing accumulated : DocumentAccumulator) :
    Result DocumentAccumulator := do
  throwIf (existing.document.documentSha256 ≠ accumulated.document.documentSha256 ∨
      existing.document.semanticText ≠ accumulated.document.semanticText ∨
      existing.document.facetsJson ≠ accumulated.document.facetsJson)
    (.inconsistentDocument documentId)
  let occurrenceCount ← orThrow (toWidth 64
    (existing.document.occurrenceCount + accumulated.document.occurrenceCount)) .countOverflow
  return {
    document := { existing.document with occurrenceCount := occurrenceCount }
    primaryRelation :=
      if accumulated.primaryRelation < existing.primaryRelation then accumulated.primaryRelation
      else existing.primaryRelation
    relations := existing.relations ∪ accumulated.relations }

/-! ### Runs -/

/-- The JSON writer and reader of rows. -/
structure RowCodec where
  encode : DocumentRunRow → String
  decode : String → Option DocumentRunRow

structure SortedDocumentRuns where
  maximumRows : ℕ
  buffered : SortedMap String DocumentAccumulator
  /-- The lines of the files at the run paths, in order. -/
  runs : List (List String)
  maximumBufferedDocuments : ℕ
  deriving DecidableEq

structure DocumentRunStats where
  runCount : ℕ
  maximumBufferedDocuments : ℕ
  deriving DecidableEq

def maxDocumentRunRows : ℕ := 600000

def SortedDocumentRuns.new (rootExists : Bool) (maximumRows : ℕ) : Result SortedDocumentRuns := do
  throwIf (maximumRows = 0 ∨ maxDocumentRunRows < maximumRows)
    (.accountingClosure "document run rows must be between 1 and 600000")
  throwIf rootExists (.accountingClosure "document run staging directory already exists")
  return ⟨maximumRows, SortedMap.empty, [], 0⟩

def SortedDocumentRuns.isEmpty (runs : SortedDocumentRuns) : Prop :=
  runs.runs = [] ∧ runs.buffered.entries = []

variable (codec : RowCodec)

/-- The line of a row. -/
def rowLine (row : DocumentRunRow) : String := codec.encode row ++ "\n"

def SortedDocumentRuns.flush (runs : SortedDocumentRuns) : SortedDocumentRuns :=
  if runs.buffered.entries = [] then runs
  else { runs with
    buffered := SortedMap.empty
    runs := runs.runs ++ [runs.buffered.entries.map fun entry => rowLine codec ⟨entry.1, entry.2⟩] }

def SortedDocumentRuns.add (runs : SortedDocumentRuns)
    (entry : String × DocumentAccumulator) : Result SortedDocumentRuns :=
  match runs.buffered.get? entry.1 with
  | some existing => do
    let merged ← mergeDocumentAccumulators entry.1 existing entry.2
    return { runs with buffered := runs.buffered.insert entry.1 merged }
  | none =>
    let runs := if runs.buffered.size = runs.maximumRows then runs.flush codec else runs
    let buffered := runs.buffered.insert entry.1 entry.2
    .ok { runs with
      buffered := buffered
      maximumBufferedDocuments := max runs.maximumBufferedDocuments buffered.size }

def SortedDocumentRuns.addAll (runs : SortedDocumentRuns)
    (documents : List (String × DocumentAccumulator)) : Result SortedDocumentRuns :=
  documents.foldlM (SortedDocumentRuns.add codec) runs

/-! ### Readers -/

structure DocumentRunReader where
  lines : List String
  previousDocumentId : Option String

def DocumentRunReader.open (lines : List String) : DocumentRunReader := ⟨lines, none⟩

/-- A line without its line end. -/
def trimLineEnd (line : String) : String :=
  String.ofList (line.toList.reverse.dropWhile fun c => c = '\r' ∨ c = '\n').reverse

/-- The next row of a run and the reader behind it. -/
def DocumentRunReader.next (reader : DocumentRunReader) :
    Result (Option DocumentRunRow × DocumentRunReader) :=
  match reader.lines with
  | [] => .ok (none, reader)
  | line :: lines => do
    let row ← orThrow (codec.decode (trimLineEnd line)) .json
    throwIf (row.documentId ≠ row.accumulated.document.documentId ∨
        ∃ previous ∈ reader.previousDocumentId, row.documentId ≤ previous)
      (.accountingClosure "document run rows are not strictly ordered")
    return (some row, ⟨lines, some row.documentId⟩)

/-! ### The merge -/

/-- The heap as the list of its entries, the least id and run first. -/
abbrev RunHeap := List (String × ℕ)

def RunHeap.push (heap : RunHeap) (entry : String × ℕ) : RunHeap :=
  heap.orderedInsert (fun a b => toLex a ≤ toLex b) entry

structure MergeState where
  readers : List DocumentRunReader
  current : List (Option DocumentRunRow)
  heap : RunHeap

/-- The heap with the row of a run, when there is one. -/
def pushRow (heap : RunHeap) (runOrdinal : ℕ) (row : Option DocumentRunRow) : RunHeap :=
  match row with
  | some row => heap.push (row.documentId, runOrdinal)
  | none => heap

/-- The first row of one more run. -/
def readFirstRow (state : MergeState) (reader : DocumentRunReader) : Result MergeState := do
  let (row, reader) ← reader.next codec
  return {
    readers := state.readers ++ [reader]
    current := state.current ++ [row]
    heap := pushRow state.heap state.current.length row }

def advanceDocumentRun (runOrdinal : ℕ) (state : MergeState) : Result MergeState := do
  let reader ← orThrow state.readers[runOrdinal]? .aborted
  let (row, reader) ← reader.next codec
  return {
    readers := state.readers.set runOrdinal reader
    current := state.current.set runOrdinal row
    heap := pushRow state.heap runOrdinal row }

/-- The current row of a run, taken out. -/
def takeCurrent (runOrdinal : ℕ) (state : MergeState) : Result (DocumentRunRow × MergeState) := do
  let current ← orThrow state.current[runOrdinal]? .aborted
  let row ← orThrow current (.accountingClosure "document run heap is inconsistent")
  return (row, { state with current := state.current.set runOrdinal none })

/-- The rows of the same document in other runs, merged into it. Every turn reads a
row, so `fuel` rows are enough turns. -/
def drainDuplicates (documentId : String) :
    ℕ → DocumentAccumulator → MergeState → Result (DocumentAccumulator × MergeState)
  | 0, _, _ => .error .aborted
  | fuel + 1, merged, state =>
    match state.heap with
    | [] => .ok (merged, state)
    | (nextId, runOrdinal) :: heap =>
      if nextId = documentId then do
        let (duplicate, state) ← takeCurrent runOrdinal { state with heap := heap }
        let merged ← mergeDocumentAccumulators documentId merged duplicate.accumulated
        let state ← advanceDocumentRun codec runOrdinal state
        drainDuplicates documentId fuel merged state
      else .ok (merged, state)

/-- The documents of all runs, visited one after the other. -/
def drainRuns {σ : Type} (visit : σ → DocumentAccumulator → Result σ) :
    ℕ → MergeState → σ → Result σ
  | 0, _, _ => .error .aborted
  | fuel + 1, state, s =>
    match state.heap with
    | [] => .ok s
    | (documentId, runOrdinal) :: heap => do
      let (row, state) ← takeCurrent runOrdinal { state with heap := heap }
      let state ← advanceDocumentRun codec runOrdinal state
      let (merged, state) ← drainDuplicates codec documentId (fuel + 1) row.accumulated state
      let s ← visit s merged
      drainRuns visit fuel state s

def SortedDocumentRuns.merge {σ : Type} (visit : σ → DocumentAccumulator → Result σ)
    (runs : SortedDocumentRuns) (s : σ) : Result (DocumentRunStats × σ) := do
  let runs := runs.flush codec
  let stats := ⟨runs.runs.length, runs.maximumBufferedDocuments⟩
  let readers := runs.runs.map DocumentRunReader.open
  let state ← readers.foldlM (readFirstRow codec) ⟨[], [], []⟩
  let s ← drainRuns codec visit (runs.runs.flatten.length + 1) state s
  return (stats, s)

/-! ### Combining accumulators -/

/-- Two accumulators in one. What is not combined is taken from the first. -/
def combineAccumulators (existing accumulated : DocumentAccumulator) : DocumentAccumulator where
  document := { existing.document with
    occurrenceCount := ⟨(existing.document.occurrenceCount +
      accumulated.document.occurrenceCount : ℕ) % 2 ^ 64, Nat.mod_lt _ (by decide)⟩ }
  primaryRelation := min existing.primaryRelation accumulated.primaryRelation
  relations := existing.relations ∪ accumulated.relations

/-- What accumulators of one document have in common. -/
def DocumentAccumulator.content (accumulated : DocumentAccumulator) : String × String × String :=
  (accumulated.document.documentSha256, accumulated.document.semanticText,
    accumulated.document.facetsJson)

abbrev DocumentAccumulator.count (accumulated : DocumentAccumulator) : ℕ :=
  accumulated.document.occurrenceCount

/-- Accumulators of one document whose counts can be added up. -/
def Compatible (accumulators : List DocumentAccumulator) : Prop :=
  (∀ a ∈ accumulators, ∀ b ∈ accumulators, a.content = b.content) ∧
    (accumulators.map (·.count)).sum < 2 ^ 64

theorem combineAccumulators_count {a b : DocumentAccumulator} (h : a.count + b.count < 2 ^ 64) :
    (combineAccumulators a b).count = a.count + b.count := Nat.mod_eq_of_lt h

theorem combineAccumulators_assoc (a b c : DocumentAccumulator) :
    combineAccumulators (combineAccumulators a b) c =
      combineAccumulators a (combineAccumulators b c) := by
  have hcount : ((a.count + b.count) % 2 ^ 64 + c.count) % 2 ^ 64 =
      (a.count + (b.count + c.count) % 2 ^ 64) % 2 ^ 64 := by
    rw [Nat.mod_add_mod, Nat.add_mod_mod, Nat.add_assoc]
  have hcount' : (combineAccumulators (combineAccumulators a b) c).document.occurrenceCount =
      (combineAccumulators a (combineAccumulators b c)).document.occurrenceCount :=
    Fin.ext hcount
  unfold combineAccumulators at hcount' ⊢
  simp only [DocumentAccumulator.mk.injEq, FastDocument.mk.injEq, true_and]
  exact ⟨⟨hcount', trivial⟩, min_assoc _ _ _, Finset.union_assoc _ _ _⟩

theorem mergeDocumentAccumulators_eq_ok {documentId : String} {a b : DocumentAccumulator}
    (h : Compatible [a, b]) :
    mergeDocumentAccumulators documentId a b = .ok (combineAccumulators a b) := by
  obtain ⟨hcontent, hsum⟩ := h
  have hsum' : a.count + b.count < 2 ^ 64 := by simpa using hsum
  have heq : a.content = b.content := hcontent a (by simp) b (by simp)
  obtain ⟨hsha, hrest⟩ := Prod.mk.inj heq
  obtain ⟨htext, hfacets⟩ := Prod.mk.inj hrest
  rw [mergeDocumentAccumulators, throwIf_bind_of_not (by simp [hsha, htext, hfacets])]
  have hcount : toWidth 64 (a.document.occurrenceCount + b.document.occurrenceCount) =
      some (combineAccumulators a b).document.occurrenceCount :=
    toWidth_eq_some.mpr (combineAccumulators_count hsum')
  rw [hcount]
  have hprimary : (if b.primaryRelation < a.primaryRelation then b.primaryRelation
      else a.primaryRelation) = min a.primaryRelation b.primaryRelation := by
    split
    · next hlt => rw [min_eq_right hlt.le]
    · next hle => rw [min_eq_left (not_lt.mp hle)]
  rw [hprimary]
  rfl

theorem compatible_mergeable :
    Mergeable mergeDocumentAccumulators combineAccumulators Compatible where
  assoc := combineAccumulators_assoc
  merge_eq _ _ _ := mergeDocumentAccumulators_eq_ok
  sublist as bs hgood hsub := by
    refine ⟨fun a ha b hb => hgood.1 a (hsub.subset ha) b (hsub.subset hb), ?_⟩
    exact lt_of_le_of_lt (List.Sublist.sum_le_sum (hsub.map _) fun _ _ => Nat.zero_le _) hgood.2
  combine as a b bs hgood := by
    obtain ⟨hcontent, hsum⟩ := hgood
    have hab : a.count + b.count < 2 ^ 64 := by
      rw [List.map_append, List.sum_append, List.map_cons, List.sum_cons, List.map_cons,
        List.sum_cons] at hsum
      omega
    have hof : ∀ x ∈ as ++ combineAccumulators a b :: bs, ∃ y ∈ as ++ a :: b :: bs,
        x.content = y.content := by
      intro x hx
      rcases List.mem_append.mp hx with hx | hx
      · exact ⟨x, List.mem_append_left _ hx, rfl⟩
      · rcases List.mem_cons.mp hx with rfl | hx
        · exact ⟨a, by simp, rfl⟩
        · exact ⟨x, by simp [hx], rfl⟩
    refine ⟨fun x hx y hy => ?_, ?_⟩
    · obtain ⟨x', hx', hxx'⟩ := hof x hx
      obtain ⟨y', hy', hyy'⟩ := hof y hy
      rw [hxx', hyy', hcontent x' hx' y' hy']
    · rw [List.map_append, List.sum_append, List.map_cons, List.sum_cons,
        combineAccumulators_count hab]
      rw [List.map_append, List.sum_append, List.map_cons, List.sum_cons, List.map_cons,
        List.sum_cons] at hsum
      omega

/-! ### The map in memory -/

/-- All accumulators in one map, as it is built in memory. -/
def inMemory (entries : List (String × DocumentAccumulator)) :
    Result (SortedMap String DocumentAccumulator) :=
  entries.foldlM (upsertM mergeDocumentAccumulators) SortedMap.empty

/-- The accumulators of every document can be combined. -/
def Consistent (entries : List (String × DocumentAccumulator)) : Prop :=
  ∀ documentId, Compatible (valuesOf documentId entries)

theorem inMemory_eq_ok {entries : List (String × DocumentAccumulator)} (h : Consistent entries) :
    inMemory entries = .ok (collect combineAccumulators entries) :=
  compatible_mergeable.foldlM_upsertM [] entries h

/-- The combination of accumulators: the sum of their counts, the least of their
primary relations and all of their relations. -/
structure Combines (accumulators : List DocumentAccumulator) (accumulated : DocumentAccumulator) :
    Prop where
  count : accumulated.count = (accumulators.map (·.count)).sum
  primary_mem : ∃ a ∈ accumulators, accumulated.primaryRelation = a.primaryRelation
  primary_le : ∀ a ∈ accumulators, accumulated.primaryRelation ≤ a.primaryRelation
  relations : ∀ relation, relation ∈ accumulated.relations ↔
    ∃ a ∈ accumulators, relation ∈ a.relations

theorem combines_of_combineAll {accumulators : List DocumentAccumulator}
    {accumulated : DocumentAccumulator} (hgood : Compatible accumulators)
    (h : combineAll combineAccumulators accumulators = some accumulated) :
    Combines accumulators accumulated := by
  induction accumulators using List.reverseRecOn generalizing accumulated with
  | nil => cases h
  | append_singleton as b ih =>
    rw [combineAll_concat] at h
    cases has : combineAll combineAccumulators as with
    | none =>
      rw [has] at h
      obtain rfl := Option.some.inj h
      rw [combineAll_eq_none.mp has, List.nil_append]
      exact ⟨by simp, ⟨b, by simp, rfl⟩, by simp, by simp⟩
    | some a =>
      rw [has] at h
      obtain rfl := Option.some.inj h
      have hfirst := ih (compatible_mergeable.sublist _ _ hgood (List.sublist_append_left as [b])) has
      have hsum := hgood.2
      rw [List.map_append, List.sum_append, ← hfirst.count, List.map_singleton,
        List.sum_singleton] at hsum
      refine ⟨?_, ?_, ?_, ?_⟩
      · rw [combineAccumulators_count hsum, hfirst.count, List.map_append, List.sum_append,
          List.map_singleton, List.sum_singleton]
      · obtain ⟨c, hc, hprimary⟩ := hfirst.primary_mem
        rcases min_choice a.primaryRelation b.primaryRelation with hmin | hmin
        · exact ⟨c, List.mem_append_left _ hc, hmin.trans hprimary⟩
        · exact ⟨b, List.mem_append_right _ (List.mem_singleton_self b), hmin⟩
      · intro c hc
        rcases List.mem_append.mp hc with hc | hc
        · exact (min_le_left _ _).trans (hfirst.primary_le c hc)
        · obtain rfl := List.mem_singleton.mp hc
          exact min_le_right _ _
      · intro relation
        rw [show (combineAccumulators a b).relations = a.relations ∪ b.relations from rfl,
          Finset.mem_union, hfirst.relations]
        simp only [List.mem_append, List.mem_singleton, or_and_right, exists_or, exists_eq_left]

/-! ### Adding -/

/-- The row of an entry. -/
def entryRow (entry : String × DocumentAccumulator) : DocumentRunRow := ⟨entry.1, entry.2⟩

/-- The lines of the run of a chunk of entries. -/
def chunkLines (chunk : List (String × DocumentAccumulator)) : List String :=
  (collect combineAccumulators chunk).entries.map fun entry => rowLine codec (entryRow entry)

/-- The runs hold the entries added so far, cut into chunks, and the buffer the last
of them. -/
structure Holding (maximumRows : ℕ) (entries : List (String × DocumentAccumulator))
    (runs : SortedDocumentRuns) : Prop where
  bound : runs.maximumRows = maximumRows
  chunks : ∃ (chunks : List (List (String × DocumentAccumulator)))
    (buffered : List (String × DocumentAccumulator)), chunks.flatten ++ buffered = entries ∧
    runs.runs = chunks.map (chunkLines codec) ∧
    runs.buffered = collect combineAccumulators buffered
  buffered_le : runs.buffered.size ≤ maximumRows
  statistic_le : runs.maximumBufferedDocuments ≤ maximumRows

section Adding

variable {codec} {maximumRows : ℕ} {entries : List (String × DocumentAccumulator)}
  {runs : SortedDocumentRuns}

theorem holding_new (codec : RowCodec) (maximumRows : ℕ) :
    Holding codec maximumRows [] ⟨maximumRows, SortedMap.empty, [], 0⟩ where
  bound := rfl
  chunks := ⟨[], [], rfl, rfl, rfl⟩
  buffered_le := Nat.zero_le _
  statistic_le := Nat.zero_le _

theorem Holding.flush (h : Holding codec maximumRows entries runs) :
    Holding codec maximumRows entries (runs.flush codec) ∧
      (runs.flush codec).buffered = SortedMap.empty ∧
      ∃ chunks : List (List (String × DocumentAccumulator)), chunks.flatten = entries ∧
        (runs.flush codec).runs = chunks.map (chunkLines codec) := by
  obtain ⟨chunks, buffered, hentries, hruns, hbuffered⟩ := h.chunks
  unfold SortedDocumentRuns.flush
  by_cases hempty : runs.buffered.entries = []
  · rw [if_pos hempty]
    have hmap : runs.buffered = SortedMap.empty := by
      refine SortedMap.ext_get? fun k => ?_
      rw [SortedMap.get?, hempty]
      rfl
    -- an empty map collects no entries
    have hnone : buffered = [] := by
      rw [List.eq_nil_iff_forall_not_mem]
      intro entry hentry
      have hkey : entry.1 ∈ (collect combineAccumulators buffered).keys :=
        mem_keys_collect.mpr ⟨entry.2, hentry⟩
      rw [← hbuffered, SortedMap.keys, hempty] at hkey
      exact List.not_mem_nil hkey
    rw [hnone, List.append_nil] at hentries
    exact ⟨h, hmap, chunks, hentries, hruns⟩
  · rw [if_neg hempty]
    have hruns' : runs.runs ++ [runs.buffered.entries.map fun entry =>
        rowLine codec ⟨entry.1, entry.2⟩] = (chunks ++ [buffered]).map (chunkLines codec) := by
      rw [List.map_append, hruns, hbuffered]
      rfl
    have hflatten : (chunks ++ [buffered]).flatten = entries := by
      rw [List.flatten_append, List.flatten_singleton, hentries]
    refine ⟨⟨h.bound, ⟨chunks ++ [buffered], [], ?_, hruns', rfl⟩, Nat.zero_le _,
      h.statistic_le⟩, rfl, chunks ++ [buffered], hflatten, hruns'⟩
    rw [List.append_nil, hflatten]

/-- A buffer that has room takes an entry of a new document. -/
theorem Holding.insert (h : Holding codec maximumRows entries runs)
    {entry : String × DocumentAccumulator} (hnew : runs.buffered.get? entry.1 = none)
    (hroom : runs.buffered.size < maximumRows) :
    Holding codec maximumRows (entries ++ [entry]) { runs with
      buffered := runs.buffered.insert entry.1 entry.2
      maximumBufferedDocuments :=
        max runs.maximumBufferedDocuments (runs.buffered.insert entry.1 entry.2).size } := by
  obtain ⟨chunks, buffered, hentries, hruns, hbuffered⟩ := h.chunks
  have hsize : (runs.buffered.insert entry.1 entry.2).size ≤ maximumRows := by
    rw [SortedMap.size_insert, if_neg (SortedMap.get?_eq_none_iff.mp hnew)]
    exact hroom
  refine ⟨h.bound, ⟨chunks, buffered ++ [entry], ?_, hruns, ?_⟩, hsize,
    max_le h.statistic_le hsize⟩
  · rw [← List.append_assoc, hentries]
  · rw [collect_concat, upsert, ← hbuffered, hnew]

/-- **Adding one entry.** -/
theorem Holding.add (h : Holding codec maximumRows entries runs) (hmaximum : 0 < maximumRows)
    {entry : String × DocumentAccumulator} (hconsistent : Consistent (entries ++ [entry])) :
    ∃ runs', runs.add codec entry = .ok runs' ∧
      Holding codec maximumRows (entries ++ [entry]) runs' := by
  unfold SortedDocumentRuns.add
  cases hget : runs.buffered.get? entry.1 with
  | some existing =>
    obtain ⟨chunks, buffered, hentries, hruns, hbuffered⟩ := h.chunks
    have hgood : Compatible (valuesOf entry.1 (buffered ++ [entry])) := by
      refine compatible_mergeable.sublist _ _ (hconsistent entry.1) ?_
      rw [← hentries, List.append_assoc, valuesOf_append _ chunks.flatten]
      exact List.sublist_append_right _ _
    have hupsert := compatible_mergeable.upsertM_eq hgood
    rw [← hbuffered, upsertM, hget] at hupsert
    obtain ⟨merged, hmerge, hinsert⟩ := bind_eq_ok.mp hupsert
    refine ⟨{ runs with buffered := runs.buffered.insert entry.1 merged },
      bind_eq_ok.mpr ⟨merged, hmerge, rfl⟩, h.bound,
      ⟨chunks, buffered ++ [entry], ?_, hruns, pure_eq_ok.mp hinsert⟩, ?_, h.statistic_le⟩
    · rw [← List.append_assoc, hentries]
    · have hkey : entry.1 ∈ runs.buffered.keys := SortedMap.mem_keys_iff.mpr ⟨existing, hget⟩
      show (runs.buffered.insert entry.1 merged).size ≤ maximumRows
      rw [SortedMap.size_insert, if_pos hkey]
      exact h.buffered_le
  | none =>
    by_cases hfull : runs.buffered.size = runs.maximumRows
    · obtain ⟨hflushed, hempty, -⟩ := h.flush
      rw [if_pos hfull]
      refine ⟨_, rfl, hflushed.insert ?_ ?_⟩
      · rw [hempty]
        rfl
      · rw [hempty]
        exact hmaximum
    · rw [if_neg hfull]
      have hroom : runs.buffered.size < maximumRows :=
        lt_of_le_of_ne h.buffered_le (h.bound ▸ hfull)
      exact ⟨_, rfl, h.insert hget hroom⟩

/-- **Adding all entries.** -/
theorem holding_addAll (hmaximum : 0 < maximumRows) (hconsistent : Consistent entries) :
    ∃ runs, SortedDocumentRuns.addAll codec ⟨maximumRows, SortedMap.empty, [], 0⟩ entries =
      .ok runs ∧ Holding codec maximumRows entries runs := by
  induction entries using List.reverseRecOn with
  | nil => exact ⟨_, rfl, holding_new codec maximumRows⟩
  | append_singleton entries entry ih =>
    have hprefix : Consistent entries := fun documentId =>
      compatible_mergeable.sublist _ _ (hconsistent documentId)
        (by rw [valuesOf_append]; exact List.sublist_append_left _ _)
    obtain ⟨runs, hruns, hholding⟩ := ih hprefix
    obtain ⟨runs', hadd, hholding'⟩ := hholding.add hmaximum hconsistent
    refine ⟨runs', ?_, hholding'⟩
    rw [SortedDocumentRuns.addAll, List.foldlM_append]
    refine bind_eq_ok.mpr ⟨runs, hruns, ?_⟩
    rw [List.foldlM_cons, hadd]
    rfl

end Adding

/-! ### Reading runs back -/

/-- A row is read back from its line, which has no line end of its own. -/
structure RowCodec.Faithful (codec : RowCodec) : Prop where
  decode_encode : ∀ row, codec.decode (codec.encode row) = some row
  line : ∀ row, ∀ c ∈ (codec.encode row).toList, c ≠ '\r' ∧ c ≠ '\n'

section Reading

variable {codec}

theorem decode_rowLine (hcodec : codec.Faithful) (row : DocumentRunRow) :
    codec.decode (trimLineEnd (rowLine codec row)) = some row := by
  have hchars : (rowLine codec row).toList.reverse =
      '\n' :: (codec.encode row).toList.reverse := by
    rw [rowLine, String.toList_append, List.reverse_append]
    rfl
  have htrim : trimLineEnd (rowLine codec row) = codec.encode row := by
    rw [trimLineEnd, hchars, List.dropWhile_cons_of_pos (by decide),
      List.dropWhile_eq_self_iff.mpr, List.reverse_reverse, String.ofList_toList]
    -- the last character of the row itself is no line end
    intro hne
    have hline := hcodec.line row _ (List.mem_reverse.mp (List.getElem_mem hne))
    simpa using hline
  rw [htrim, hcodec.decode_encode]

/-- The reader of a run in front of the given rows. -/
theorem next_eq_ok (hcodec : codec.Faithful) {reader : DocumentRunReader}
    {rows : List DocumentRunRow} (hlines : reader.lines = rows.map (rowLine codec))
    (hids : ∀ row ∈ rows, row.accumulated.document.documentId = row.documentId)
    (hprevious : ∀ row ∈ rows, ∀ previous ∈ reader.previousDocumentId,
      previous < row.documentId) :
    ∃ reader', reader.next codec = .ok (rows.head?, reader') ∧
      reader'.lines = rows.tail.map (rowLine codec) ∧
      ∀ row ∈ rows.head?, reader'.previousDocumentId = some row.documentId := by
  unfold DocumentRunReader.next
  cases rows with
  | nil =>
    rw [hlines]
    exact ⟨reader, rfl, hlines, nofun⟩
  | cons row rows =>
    rw [hlines]
    show ∃ reader', (orThrow (codec.decode (trimLineEnd (rowLine codec row))) _ >>= _) = _ ∧ _
    rw [decode_rowLine hcodec]
    have hcheck : ¬ (row.documentId ≠ row.accumulated.document.documentId ∨
        ∃ previous ∈ reader.previousDocumentId, row.documentId ≤ previous) := by
      rintro (hne | ⟨previous, hmem, hle⟩)
      · exact hne (hids row List.mem_cons_self).symm
      · exact absurd (hprevious row List.mem_cons_self previous hmem) (not_lt.mpr hle)
    refine ⟨⟨rows.map (rowLine codec), some row.documentId⟩, ?_, rfl, ?_⟩
    · show (throwIf _ _ >>= _) = _
      rw [throwIf_bind_of_not hcheck]
      rfl
    · rintro row' hrow'
      obtain rfl := Option.some.inj hrow'
      rfl

end Reading

/-! ### The order of the merge -/

/-- A row and the run it stands in. -/
abbrev TaggedRow := ℕ × DocumentRunRow

/-- The merge reads rows by id, and rows of one id by run. -/
def TaggedRow.key (tagged : TaggedRow) : String ×ₗ ℕ := toLex (tagged.2.documentId, tagged.1)

def TaggedRow.entry (tagged : TaggedRow) : String × DocumentAccumulator :=
  (tagged.2.documentId, tagged.2.accumulated)

/-- The rows of the runs from the `n`-th on. -/
def taggedRows : ℕ → List (List DocumentRunRow) → List TaggedRow
  | _, [] => []
  | n, rows :: runs => rows.map (Prod.mk n) ++ taggedRows (n + 1) runs

/-- The rows of a run as they are written: by ascending id. -/
def Ascending (rows : List DocumentRunRow) : Prop :=
  rows.Pairwise fun row row' => row.documentId < row'.documentId

theorem le_of_mem_taggedRows {n : ℕ} {runs : List (List DocumentRunRow)} {tagged : TaggedRow}
    (h : tagged ∈ taggedRows n runs) : n ≤ tagged.1 ∧ tagged.1 < n + runs.length := by
  induction runs generalizing n with
  | nil => exact absurd h List.not_mem_nil
  | cons rows runs ih =>
    rcases List.mem_append.mp h with h | h
    · obtain ⟨_, -, rfl⟩ := List.mem_map.mp h
      exact ⟨le_rfl, Nat.lt_add_of_pos_right (Nat.succ_pos _)⟩
    · obtain ⟨hle, hlt⟩ := ih h
      rw [List.length_cons]
      omega

/-- Earlier rows of one id stand in earlier runs. -/
theorem taggedRows_pairwise {n : ℕ} {runs : List (List DocumentRunRow)}
    (h : ∀ rows ∈ runs, Ascending rows) :
    (taggedRows n runs).Pairwise fun t u =>
      t.key ≠ u.key ∧ (t.2.documentId = u.2.documentId → t.key ≤ u.key) ∧
        (t.1 = u.1 → t.key ≤ u.key) := by
  induction runs generalizing n with
  | nil => exact List.Pairwise.nil
  | cons rows runs ih =>
    obtain ⟨hrows, hruns⟩ := List.forall_mem_cons.mp h
    refine List.pairwise_append.mpr ⟨?_, ih hruns, fun t ht u hu => ?_⟩
    · refine List.pairwise_map.mpr (hrows.imp fun {row row'} hlt => ?_)
      have hkey : TaggedRow.key (n, row) < TaggedRow.key (n, row') :=
        Prod.Lex.toLex_lt_toLex.mpr (Or.inl hlt)
      exact ⟨hkey.ne, fun _ => hkey.le, fun _ => hkey.le⟩
    · obtain ⟨row, -, rfl⟩ := List.mem_map.mp ht
      have hrun := (le_of_mem_taggedRows hu).1
      refine ⟨fun heq => ?_, fun hid => ?_, fun heq => ?_⟩
      · have hpair := Prod.mk.inj (toLex.injective heq)
        have hn : n = u.1 := hpair.2
        omega
      · exact Prod.Lex.toLex_le_toLex.mpr (Or.inr ⟨hid, (Nat.le_succ n).trans hrun⟩)
      · have hn : n = u.1 := heq
        omega

theorem nodup_key_taggedRows {n : ℕ} {runs : List (List DocumentRunRow)}
    (h : ∀ rows ∈ runs, Ascending rows) : ((taggedRows n runs).map TaggedRow.key).Nodup :=
  List.pairwise_map.mpr ((taggedRows_pairwise h).imp fun hpair => hpair.1)

/-- The rows of one run. -/
theorem filter_taggedRows (n i : ℕ) (runs : List (List DocumentRunRow)) :
    ((taggedRows n runs).filter (·.1 = n + i)).map Prod.snd = (runs[i]?).getD [] := by
  induction runs generalizing n i with
  | nil => rfl
  | cons rows runs ih =>
    rw [taggedRows, List.filter_append, List.map_append]
    cases i with
    | zero =>
      have hrest : (taggedRows (n + 1) runs).filter (·.1 = n + 0) = [] := by
        refine List.filter_eq_nil_iff.mpr fun t ht => ?_
        have hrun := (le_of_mem_taggedRows ht).1
        simp only [decide_eq_true_eq]
        omega
      have hfirst : (rows.map (Prod.mk n)).filter (·.1 = n + 0) = rows.map (Prod.mk n) :=
        List.filter_eq_self.mpr fun t ht => by
          obtain ⟨_, -, rfl⟩ := List.mem_map.mp ht
          simp
      rw [hrest, hfirst, List.map_nil, List.append_nil, List.map_map]
      exact List.map_id _
    | succ i =>
      have hfirst : (rows.map (Prod.mk n)).filter (·.1 = n + (i + 1)) = [] :=
        List.filter_eq_nil_iff.mpr fun t ht => by
          obtain ⟨_, -, rfl⟩ := List.mem_map.mp ht
          simp
      have hshift := ih (n + 1) i
      rw [Nat.add_assoc, Nat.add_comm 1 i] at hshift
      rw [hfirst, List.map_nil, List.nil_append, hshift]
      rfl

theorem map_snd_taggedRows (n : ℕ) (runs : List (List DocumentRunRow)) :
    (taggedRows n runs).map Prod.snd = runs.flatten := by
  induction runs generalizing n with
  | nil => rfl
  | cons rows runs ih =>
    rw [taggedRows, List.map_append, ih, List.flatten_cons, List.map_map]
    exact congrArg (· ++ runs.flatten) (List.map_id _)

theorem map_entry_taggedRows (n : ℕ) (runs : List (List DocumentRunRow)) :
    (taggedRows n runs).map TaggedRow.entry =
      runs.flatten.map fun row => (row.documentId, row.accumulated) := by
  rw [← map_snd_taggedRows n, List.map_map]
  rfl

/-- All rows in the order in which the merge reads them. -/
def mergeOrder (runs : List (List DocumentRunRow)) : List TaggedRow :=
  sortBy TaggedRow.key (taggedRows 0 runs)

theorem filter_mergeOrder {runs : List (List DocumentRunRow)} (h : ∀ rows ∈ runs, Ascending rows)
    (i : ℕ) : ((mergeOrder runs).filter (·.1 = i)).map Prod.snd = (runs[i]?).getD [] := by
  have hsorted : ((taggedRows 0 runs).filter (·.1 = i)).Pairwise
      fun t u => t.key ≤ u.key := by
    refine ((taggedRows_pairwise h).filter _).imp_of_mem fun {t u} ht hu hpair => ?_
    refine hpair.2.2 ?_
    rw [List.mem_filter, decide_eq_true_eq] at ht hu
    rw [ht.2, hu.2]
  have hrun := filter_taggedRows 0 i runs
  rw [Nat.zero_add] at hrun
  rw [mergeOrder, filter_sortBy _ (nodup_key_taggedRows h), sortBy_of_pairwise hsorted, hrun]

/-- The order of the rows of one document is that of the runs. -/
theorem valuesOf_mergeOrder {runs : List (List DocumentRunRow)}
    (h : ∀ rows ∈ runs, Ascending rows) (documentId : String) :
    valuesOf documentId ((mergeOrder runs).map TaggedRow.entry) =
      valuesOf documentId (runs.flatten.map fun row => (row.documentId, row.accumulated)) := by
  have hsorted : ((taggedRows 0 runs).filter (·.2.documentId = documentId)).Pairwise
      fun t u => t.key ≤ u.key := by
    refine ((taggedRows_pairwise h).filter _).imp_of_mem fun {t u} ht hu hpair => ?_
    refine hpair.2.1 ?_
    rw [List.mem_filter, decide_eq_true_eq] at ht hu
    rw [ht.2, hu.2]
  rw [← map_entry_taggedRows 0, valuesOf, valuesOf, List.filter_map, List.filter_map]
  show List.map _ (List.map _ ((mergeOrder runs).filter (·.2.documentId = documentId))) =
    List.map _ (List.map _ ((taggedRows 0 runs).filter (·.2.documentId = documentId)))
  rw [mergeOrder, filter_sortBy _ (nodup_key_taggedRows h), sortBy_of_pairwise hsorted]

/-! ### The state of the merge -/

/-- The heap holds the current row of every run that has one. -/
structure HeapOf (current : List (Option DocumentRunRow)) (heap : RunHeap) : Prop where
  sorted : heap.Pairwise fun a b => toLex a ≤ toLex b
  nodup : heap.Nodup
  mem : ∀ documentId i, (documentId, i) ∈ heap ↔
    ∃ row, current[i]? = some (some row) ∧ row.documentId = documentId

/-- A run is at the given rows: the first is current, the reader is behind it. -/
structure RunAt (codec : RowCodec) (rows : List DocumentRunRow) (reader : DocumentRunReader)
    (current : Option DocumentRunRow) : Prop where
  current : current = rows.head?
  lines : reader.lines = rows.tail.map (rowLine codec)
  previous : ∀ row ∈ rows.head?, reader.previousDocumentId = some row.documentId

/-- The rows still to be merged, in order. -/
structure Pending (codec : RowCodec) (state : MergeState) (pending : List TaggedRow) : Prop where
  sorted : pending.Pairwise fun t u => t.key < u.key
  ids : ∀ t ∈ pending, t.2.accumulated.document.documentId = t.2.documentId
  inRange : ∀ t ∈ pending, t.1 < state.readers.length
  length : state.current.length = state.readers.length
  run : ∀ i reader current, state.readers[i]? = some reader → state.current[i]? = some current →
    RunAt codec ((pending.filter (·.1 = i)).map Prod.snd) reader current
  heap : HeapOf state.current state.heap

section Merging

variable {codec}

/-- A heap after the current row of its first run was replaced. -/
theorem HeapOf.replace {current : List (Option DocumentRunRow)} {documentId : String} {i : ℕ}
    {heap : RunHeap} (h : HeapOf current ((documentId, i) :: heap)) (hi : i < current.length)
    (row : Option DocumentRunRow) : HeapOf (current.set i row) (pushRow heap i row) := by
  obtain ⟨hsorted, hnodup, hmem⟩ := h
  obtain ⟨-, hrest⟩ := List.pairwise_cons.mp hsorted
  obtain ⟨hout, hnodup'⟩ := List.nodup_cons.mp hnodup
  have hfirst := (hmem documentId i).mp List.mem_cons_self
  -- no other entry of the heap is of the run
  have hother : ∀ documentId' j, (documentId', j) ∈ heap → j ≠ i := by
    rintro documentId' j hj rfl
    obtain ⟨row₁, hrow₁, hid₁⟩ := hfirst
    obtain ⟨row₂, hrow₂, hid₂⟩ := (hmem documentId' j).mp (List.mem_cons_of_mem _ hj)
    have hrows : row₁ = row₂ := Option.some.inj (Option.some.inj (hrow₁.symm.trans hrow₂))
    rw [← hid₂, ← hrows, hid₁] at hj
    exact hout hj
  have hkept : ∀ documentId' j, (documentId', j) ∈ heap ↔
      j ≠ i ∧ ∃ row, current[j]? = some (some row) ∧ row.documentId = documentId' := by
    intro documentId' j
    rw [← hmem, List.mem_cons]
    constructor
    · exact fun hj => ⟨hother documentId' j hj, Or.inr hj⟩
    · rintro ⟨hne, heq | hj⟩
      · exact absurd (Prod.mk.inj heq).2 hne
      · exact hj
  have hset : ∀ j, j ≠ i → (current.set i row)[j]? = current[j]? := fun j hne =>
    List.getElem?_set_ne (Ne.symm hne)
  have hself : (current.set i row)[i]? = some row := by
    rw [List.getElem?_set_self hi]
  cases row with
  | none =>
    refine ⟨hrest, hnodup', fun documentId' j => ?_⟩
    rw [show pushRow heap i none = heap from rfl, hkept]
    by_cases hj : j = i
    · subst hj
      rw [hself]
      simp
    · rw [hset j hj]
      simp [hj]
  | some row =>
    have hperm := List.perm_orderedInsert (fun a b : String × ℕ => toLex a ≤ toLex b)
      (row.documentId, i) heap
    have hnew : (row.documentId, i) ∉ heap := fun hj => hother _ _ hj rfl
    refine ⟨?_, hperm.nodup_iff.mpr (List.nodup_cons.mpr ⟨hnew, hnodup'⟩), fun documentId' j => ?_⟩
    · have htrans : IsTrans (String × ℕ) fun a b => toLex a ≤ toLex b := ⟨fun _ _ _ => le_trans⟩
      have htotal : Std.Total fun a b : String × ℕ => toLex a ≤ toLex b :=
        ⟨fun a b => le_total (toLex a) (toLex b)⟩
      exact hrest.orderedInsert (row.documentId, i) heap
    · rw [show pushRow heap i (some row) = List.orderedInsert
        (fun a b : String × ℕ => toLex a ≤ toLex b) (row.documentId, i) heap from rfl,
        hperm.mem_iff, List.mem_cons, hkept]
      by_cases hj : j = i
      · subst hj
        rw [hself]
        simp [eq_comm]
      · rw [hset j hj]
        simp [hj]

theorem Pending.runAt {state : MergeState} {pending : List TaggedRow}
    (h : Pending codec state pending) {i : ℕ} (hi : i < state.readers.length) :
    ∃ reader current, state.readers[i]? = some reader ∧ state.current[i]? = some current ∧
      RunAt codec ((pending.filter (·.1 = i)).map Prod.snd) reader current := by
  have hi' : i < state.current.length := h.length ▸ hi
  exact ⟨state.readers[i], state.current[i], List.getElem?_eq_getElem hi,
    List.getElem?_eq_getElem hi', h.run i _ _ (List.getElem?_eq_getElem hi)
      (List.getElem?_eq_getElem hi')⟩

/-- The current row of a run is pending. -/
theorem Pending.mem_of_current {state : MergeState} {pending : List TaggedRow}
    (h : Pending codec state pending) {i : ℕ} {row : DocumentRunRow}
    (hrow : state.current[i]? = some (some row)) : (i, row) ∈ pending := by
  have hi : i < state.readers.length := by
    rw [← h.length]
    exact (List.getElem?_eq_some_iff.mp hrow).1
  obtain ⟨reader, current, -, hcurrent, hrun⟩ := h.runAt hi
  rw [hrow] at hcurrent
  obtain rfl := Option.some.inj hcurrent
  obtain ⟨tagged, htagged, rfl⟩ := List.mem_map.mp (List.mem_of_mem_head? hrun.current.symm)
  rw [List.mem_filter, decide_eq_true_eq] at htagged
  obtain ⟨hmem, rfl⟩ := htagged
  exact hmem

/-- Nothing is pending: the heap is empty. -/
theorem Pending.heap_eq_nil {state : MergeState} (h : Pending codec state []) :
    state.heap = [] := by
  rw [List.eq_nil_iff_forall_not_mem]
  rintro ⟨documentId, i⟩ hmem
  obtain ⟨row, hrow, -⟩ := (h.heap.mem documentId i).mp hmem
  exact List.not_mem_nil (h.mem_of_current hrow)

/-- The first pending row is the current one of its run, at the top of the heap. -/
theorem Pending.top {state : MergeState} {tagged : TaggedRow} {rest : List TaggedRow}
    (h : Pending codec state (tagged :: rest)) :
    (∃ heap, state.heap = (tagged.2.documentId, tagged.1) :: heap) ∧
      state.current[tagged.1]? = some (some tagged.2) := by
  obtain ⟨reader, current, -, hcurrent, hrun⟩ := h.runAt (h.inRange tagged List.mem_cons_self)
  have hhead : current = some tagged.2 := by
    rw [hrun.current, List.filter_cons_of_pos (by simp)]
    rfl
  rw [hhead] at hcurrent
  refine ⟨?_, hcurrent⟩
  have hmem : (tagged.2.documentId, tagged.1) ∈ state.heap :=
    (h.heap.mem _ _).mpr ⟨tagged.2, hcurrent, rfl⟩
  cases hheap : state.heap with
  | nil =>
    rw [hheap] at hmem
    exact absurd hmem List.not_mem_nil
  | cons top heap =>
    -- the top of the heap is pending, so it is not before the first pending row
    obtain ⟨row, hrow, hid⟩ := (h.heap.mem top.1 top.2).mp (by rw [hheap]; exact List.mem_cons_self)
    have htop : TaggedRow.key tagged ≤ toLex top := by
      have hkey : TaggedRow.key (top.2, row) = toLex top := by
        rw [TaggedRow.key, hid]
      rw [← hkey]
      rcases List.mem_cons.mp (h.mem_of_current hrow) with heq | hrest
      · rw [heq]
      · exact ((List.pairwise_cons.mp h.sorted).1 _ hrest).le
    have hle : toLex top ≤ TaggedRow.key tagged := by
      rw [hheap] at hmem
      rcases List.mem_cons.mp hmem with heq | hrest
      · rw [← heq]
        exact le_rfl
      · have hsorted := h.heap.sorted
        rw [hheap] at hsorted
        exact (List.pairwise_cons.mp hsorted).1 _ hrest
    have heq : top = (tagged.2.documentId, tagged.1) := toLex.injective (le_antisymm hle htop)
    exact ⟨heap, by rw [heq]⟩

/-- **Reading one row.** The first pending row is popped and taken, and its run
advances to the rest. -/
theorem Pending.pop (hcodec : codec.Faithful) {state : MergeState} {tagged : TaggedRow}
    {rest : List TaggedRow} (h : Pending codec state (tagged :: rest)) :
    ∃ heap taken state', state.heap = (tagged.2.documentId, tagged.1) :: heap ∧
      takeCurrent tagged.1 { state with heap := heap } = .ok (tagged.2, taken) ∧
      advanceDocumentRun codec tagged.1 taken = .ok state' ∧ Pending codec state' rest := by
  obtain ⟨⟨heap, hheap⟩, hcurrent⟩ := h.top
  have hi := h.inRange tagged List.mem_cons_self
  obtain ⟨reader, current, hreader, -, hrun⟩ := h.runAt hi
  obtain ⟨hfirst, hrest⟩ := List.pairwise_cons.mp h.sorted
  -- the rows of the run behind the one that is taken
  set rows := (rest.filter (·.1 = tagged.1)).map Prod.snd with hrows
  have hsplit : ((tagged :: rest).filter (·.1 = tagged.1)).map Prod.snd = tagged.2 :: rows := by
    rw [List.filter_cons_of_pos (by simp)]
    rfl
  rw [hsplit] at hrun
  have hof : ∀ row ∈ rows, (tagged.1, row) ∈ rest := by
    intro row hrow
    obtain ⟨u, hu, rfl⟩ := List.mem_map.mp hrow
    rw [List.mem_filter, decide_eq_true_eq] at hu
    obtain ⟨hmem, heq⟩ := hu
    rw [← heq]
    exact hmem
  obtain ⟨reader', hnext, hlines, hprevious⟩ := next_eq_ok hcodec hrun.lines
    (fun row hrow => h.ids _ (List.mem_cons_of_mem _ (hof row hrow)))
    (fun row hrow previous hmem => by
      rw [hrun.previous tagged.2 rfl] at hmem
      obtain rfl := Option.some.inj hmem
      have hlt := hfirst _ (hof row hrow)
      rcases Prod.Lex.toLex_lt_toLex.mp hlt with hlt | ⟨-, hlt⟩
      · exact hlt
      · exact absurd hlt (lt_irrefl _))
  have hlength : tagged.1 < state.current.length := h.length ▸ hi
  refine ⟨heap, { state with heap := heap, current := state.current.set tagged.1 none },
    { readers := state.readers.set tagged.1 reader'
      current := (state.current.set tagged.1 none).set tagged.1 rows.head?
      heap := pushRow heap tagged.1 rows.head? }, hheap, ?_, ?_, ?_⟩
  · rw [takeCurrent]
    show (orThrow state.current[tagged.1]? _ >>= _) = _
    rw [hcurrent]
    rfl
  · rw [advanceDocumentRun]
    show (orThrow state.readers[tagged.1]? _ >>= _) = _
    rw [hreader]
    show (reader.next codec >>= _) = _
    rw [hnext]
    rfl
  · rw [List.set_set]
    have hheapOf := h.heap
    rw [hheap] at hheapOf
    refine ⟨hrest, fun t ht => h.ids t (List.mem_cons_of_mem _ ht), fun t ht => ?_, ?_, ?_,
      hheapOf.replace hlength rows.head?⟩
    · rw [List.length_set]
      exact h.inRange t (List.mem_cons_of_mem _ ht)
    · rw [List.length_set, List.length_set]
      exact h.length
    · intro j readerJ currentJ hreaderJ hcurrentJ
      by_cases hj : j = tagged.1
      · subst hj
        rw [List.getElem?_set_self hi] at hreaderJ
        rw [List.getElem?_set_self hlength] at hcurrentJ
        obtain rfl := Option.some.inj hreaderJ
        obtain rfl := Option.some.inj hcurrentJ
        exact ⟨rfl, hlines, hprevious⟩
      · rw [List.getElem?_set_ne (Ne.symm hj)] at hreaderJ hcurrentJ
        have hrunJ := h.run j readerJ currentJ hreaderJ hcurrentJ
        rwa [List.filter_cons_of_neg (by simpa using Ne.symm hj)] at hrunJ

/-! ### The loops -/

/-- The documents of pending rows, neighbours combined. -/
def groups : List TaggedRow → List (String × DocumentAccumulator)
  | [] => []
  | tagged :: rest =>
    groupRuns combineAccumulators tagged.2.documentId tagged.2.accumulated
      (rest.map TaggedRow.entry)

theorem Consistent.suffix {before after : List (String × DocumentAccumulator)}
    (h : Consistent (before ++ after)) : Consistent after := fun documentId =>
  compatible_mergeable.sublist _ _ (h documentId)
    (by rw [valuesOf_append]; exact List.sublist_append_right _ _)

/-- **The inner loop** combines the rows of the document and stops at the next one. -/
theorem drainDuplicates_eq_ok (hcodec : codec.Faithful) {fuel : ℕ} {documentId : String}
    {merged : DocumentAccumulator} {state : MergeState} {pending : List TaggedRow}
    (h : Pending codec state pending) (hfuel : pending.length < fuel)
    (hconsistent : Consistent ((documentId, merged) :: pending.map TaggedRow.entry)) :
    ∃ merged' state' rest, drainDuplicates codec documentId fuel merged state =
        .ok (merged', state') ∧ Pending codec state' rest ∧ rest <:+ pending ∧
      groupRuns combineAccumulators documentId merged (pending.map TaggedRow.entry) =
        (documentId, merged') :: groups rest := by
  induction fuel generalizing merged state pending with
  | zero => exact absurd hfuel (Nat.not_lt_zero _)
  | succ fuel ih =>
    cases pending with
    | nil =>
      refine ⟨merged, state, [], ?_, h, List.suffix_rfl, rfl⟩
      rw [drainDuplicates, h.heap_eq_nil]
    | cons tagged rest =>
      obtain ⟨heap, taken, state', hheap, htake, hadvance, hpending⟩ := h.pop hcodec
      by_cases hid : tagged.2.documentId = documentId
      · -- the row is one more of the document
        have hvalues := hconsistent documentId
        rw [valuesOf_cons_self, List.map_cons, valuesOf_cons_of_eq
          (show tagged.entry.1 = documentId from hid)] at hvalues
        have hpair : Compatible [merged, tagged.2.accumulated] :=
          compatible_mergeable.sublist _ _ hvalues
            (((List.nil_sublist _).cons_cons _).cons_cons _)
        have hmerge := compatible_mergeable.merge_eq documentId _ _ hpair
        have hrest : Consistent ((documentId, combineAccumulators merged tagged.2.accumulated) ::
            rest.map TaggedRow.entry) := by
          intro documentId'
          by_cases hid' : documentId = documentId'
          · subst hid'
            rw [valuesOf_cons_self]
            exact compatible_mergeable.combine [] _ _ _ hvalues
          · have hother := hconsistent documentId'
            rw [valuesOf_cons_of_ne hid', List.map_cons, valuesOf_cons_of_ne
              (show tagged.entry.1 ≠ documentId' from fun heq => hid' (hid.symm.trans heq))] at hother
            rwa [valuesOf_cons_of_ne hid']
        obtain ⟨merged', state'', rest', hdrain, hpending', hsuffix, hgroups⟩ :=
          ih hpending (Nat.lt_of_succ_lt_succ hfuel) hrest
        refine ⟨merged', state'', rest', ?_, hpending', hsuffix.trans (List.suffix_cons _ _), ?_⟩
        · rw [drainDuplicates, hheap]
          show (if tagged.2.documentId = documentId then _ else _) = _
          rw [if_pos hid]
          show (takeCurrent tagged.1 { state with heap := heap } >>= _) = _
          rw [htake]
          show (mergeDocumentAccumulators documentId merged tagged.2.accumulated >>= _) = _
          rw [hmerge]
          show (advanceDocumentRun codec tagged.1 taken >>= _) = _
          rw [hadvance]
          exact hdrain
        · rw [List.map_cons, groupRuns, if_pos (show tagged.entry.1 = documentId from hid)]
          exact hgroups
      · refine ⟨merged, state, tagged :: rest, ?_, h, List.suffix_rfl, ?_⟩
        · rw [drainDuplicates, hheap]
          show (if tagged.2.documentId = documentId then _ else _) = _
          rw [if_neg hid]
        · rw [List.map_cons, groupRuns, if_neg (show tagged.entry.1 ≠ documentId from hid)]
          rfl

/-- **The outer loop** visits the documents of the pending rows. -/
theorem drainRuns_eq (hcodec : codec.Faithful) {σ : Type}
    (visit : σ → DocumentAccumulator → Result σ) {fuel : ℕ} {state : MergeState}
    {pending : List TaggedRow} (h : Pending codec state pending) (hfuel : pending.length < fuel)
    (hconsistent : Consistent (pending.map TaggedRow.entry)) (s : σ) :
    drainRuns codec visit fuel state s = ((groups pending).map Prod.snd).foldlM visit s := by
  induction fuel generalizing state pending s with
  | zero => exact absurd hfuel (Nat.not_lt_zero _)
  | succ fuel ih =>
    cases pending with
    | nil =>
      rw [drainRuns, h.heap_eq_nil]
      rfl
    | cons tagged rest =>
      obtain ⟨heap, taken, state', hheap, htake, hadvance, hpending⟩ := h.pop hcodec
      have hlength : rest.length < fuel + 1 := (Nat.lt_succ_self _).trans hfuel
      obtain ⟨merged', state'', rest', hdrain, hpending', hsuffix, hgroups⟩ :=
        drainDuplicates_eq_ok hcodec hpending hlength hconsistent
      have hrest : Consistent (rest'.map TaggedRow.entry) := by
        obtain ⟨before, hbefore⟩ := hsuffix
        rw [← hbefore, List.map_cons, List.map_append, ← List.cons_append] at hconsistent
        exact hconsistent.suffix
      have hlength' : rest'.length < fuel :=
        lt_of_le_of_lt hsuffix.length_le (Nat.lt_of_succ_lt_succ hfuel)
      rw [drainRuns, hheap]
      show (takeCurrent tagged.1 { state with heap := heap } >>= _) = _
      rw [htake]
      show (advanceDocumentRun codec tagged.1 taken >>= _) = _
      rw [hadvance]
      show (drainDuplicates codec tagged.2.documentId (fuel + 1) tagged.2.accumulated state' >>=
        _) = _
      rw [hdrain, groups, hgroups, List.map_cons, List.foldlM_cons]
      exact congrArg _ (funext fun s => ih hpending' hlength' hrest s)

/-! ### The first rows -/

/-- The first rows of the runs read so far. -/
structure Opened (codec : RowCodec) (opened : List (List DocumentRunRow)) (state : MergeState) :
    Prop where
  readers : state.readers.length = opened.length
  current : state.current.length = opened.length
  run : ∀ (i : ℕ) reader current, state.readers[i]? = some reader → state.current[i]? = some current →
    RunAt codec ((opened[i]?).getD []) reader current
  heap : HeapOf state.current state.heap

theorem opened_nil : Opened codec [] ⟨[], [], []⟩ where
  readers := rfl
  current := rfl
  run _ _ _ h := by simp at h
  heap := ⟨List.Pairwise.nil, List.nodup_nil, fun _ _ => by simp⟩

/-- A heap with the current row of one more run. -/
theorem HeapOf.push {current : List (Option DocumentRunRow)} {heap : RunHeap}
    (h : HeapOf current heap) (row : Option DocumentRunRow) :
    HeapOf (current ++ [row]) (pushRow heap current.length row) := by
  have hold : ∀ documentId i, (documentId, i) ∈ heap → i < current.length := by
    intro documentId i hmem
    obtain ⟨row', hrow', -⟩ := (h.mem documentId i).mp hmem
    exact (List.getElem?_eq_some_iff.mp hrow').1
  have hget : ∀ i, (current ++ [row])[i]? =
      if i = current.length then some row else current[i]? := by
    intro i
    by_cases hi : i = current.length
    · rw [if_pos hi, hi, List.getElem?_concat_length]
    · rw [if_neg hi]
      rcases Nat.lt_or_gt_of_ne hi with hlt | hgt
      · exact List.getElem?_append_left hlt
      · rw [List.getElem?_eq_none (by rw [List.length_append, List.length_singleton]; omega),
          List.getElem?_eq_none hgt.le]
  cases row with
  | none =>
    refine ⟨h.sorted, h.nodup, fun documentId i => ?_⟩
    rw [show pushRow heap current.length none = heap from rfl, h.mem, hget]
    by_cases hi : i = current.length
    · subst hi
      simp
    · rw [if_neg hi]
  | some row =>
    have hperm := List.perm_orderedInsert (fun a b : String × ℕ => toLex a ≤ toLex b)
      (row.documentId, current.length) heap
    have hnew : (row.documentId, current.length) ∉ heap := fun hmem => lt_irrefl _ (hold _ _ hmem)
    refine ⟨?_, hperm.nodup_iff.mpr (List.nodup_cons.mpr ⟨hnew, h.nodup⟩), fun documentId i => ?_⟩
    · have htrans : IsTrans (String × ℕ) fun a b => toLex a ≤ toLex b := ⟨fun _ _ _ => le_trans⟩
      have htotal : Std.Total fun a b : String × ℕ => toLex a ≤ toLex b :=
        ⟨fun a b => le_total (toLex a) (toLex b)⟩
      exact h.sorted.orderedInsert (row.documentId, current.length) heap
    · rw [show pushRow heap current.length (some row) = List.orderedInsert
        (fun a b : String × ℕ => toLex a ≤ toLex b) (row.documentId, current.length) heap from rfl,
        hperm.mem_iff, List.mem_cons, h.mem, hget]
      by_cases hi : i = current.length
      · subst hi
        simp [eq_comm]
      · rw [if_neg hi]
        simp [hi]

/-- **The first row of one more run.** -/
theorem Opened.push (hcodec : codec.Faithful) {opened : List (List DocumentRunRow)}
    {state : MergeState} (h : Opened codec opened state) {rows : List DocumentRunRow}
    (hids : ∀ row ∈ rows, row.accumulated.document.documentId = row.documentId) :
    ∃ state', readFirstRow codec state (DocumentRunReader.open (rows.map (rowLine codec))) =
      .ok state' ∧ Opened codec (opened ++ [rows]) state' := by
  obtain ⟨reader', hnext, hlines, hprevious⟩ := @next_eq_ok codec hcodec
    (DocumentRunReader.open (rows.map (rowLine codec))) rows rfl hids nofun
  refine ⟨_, bind_eq_ok.mpr ⟨_, hnext, rfl⟩, ?_, ?_, ?_, ?_⟩
  · rw [List.length_append, List.length_append, h.readers]
    rfl
  · rw [List.length_append, List.length_append, h.current]
    rfl
  · intro i reader current hreader hcurrent
    rcases Nat.lt_trichotomy i opened.length with hlt | heq | hgt
    · rw [List.getElem?_append_left (h.readers ▸ hlt)] at hreader
      rw [List.getElem?_append_left (h.current ▸ hlt)] at hcurrent
      rw [List.getElem?_append_left hlt]
      exact h.run i reader current hreader hcurrent
    · subst heq
      rw [← h.readers, List.getElem?_concat_length] at hreader
      rw [← h.current, List.getElem?_concat_length] at hcurrent
      obtain rfl := Option.some.inj hreader
      obtain rfl := Option.some.inj hcurrent
      rw [List.getElem?_concat_length]
      exact ⟨rfl, hlines, hprevious⟩
    · rw [List.getElem?_eq_none] at hreader
      · cases hreader
      · rw [List.length_append, List.length_singleton, h.readers]
        exact hgt
  · exact h.heap.push rows.head?

theorem opened_foldlM (hcodec : codec.Faithful) (runs : List (List DocumentRunRow))
    (hids : ∀ rows ∈ runs, ∀ row ∈ rows, row.accumulated.document.documentId = row.documentId) :
    ∃ state, (runs.map fun rows => DocumentRunReader.open (rows.map (rowLine codec))).foldlM
      (readFirstRow codec) ⟨[], [], []⟩ = .ok state ∧ Opened codec runs state := by
  induction runs using List.reverseRecOn with
  | nil => exact ⟨_, rfl, opened_nil⟩
  | append_singleton runs rows ih =>
    obtain ⟨state, hfold, hopened⟩ := ih fun rows' hrows' =>
      hids rows' (List.mem_append_left _ hrows')
    obtain ⟨state', hread, hopened'⟩ := hopened.push hcodec
      (hids rows (List.mem_append_right _ (List.mem_singleton_self rows)))
    refine ⟨state', ?_, hopened'⟩
    rw [List.map_append, List.foldlM_append]
    refine bind_eq_ok.mpr ⟨state, hfold, ?_⟩
    rw [List.map_singleton, List.foldlM_cons, hread]
    rfl

/-- With the first row of every run read, all rows are pending. -/
theorem Opened.pending {runs : List (List DocumentRunRow)} {state : MergeState}
    (h : Opened codec runs state) (hascending : ∀ rows ∈ runs, Ascending rows)
    (hids : ∀ rows ∈ runs, ∀ row ∈ rows, row.accumulated.document.documentId = row.documentId) :
    Pending codec state (mergeOrder runs) where
  sorted := sortBy_pairwise_lt (nodup_key_taggedRows hascending)
  ids t ht := by
    have hmem : t.2 ∈ runs.flatten := by
      rw [← map_snd_taggedRows 0]
      exact List.mem_map_of_mem (mem_sortBy.mp ht)
    obtain ⟨rows, hrows, hrow⟩ := List.mem_flatten.mp hmem
    exact hids rows hrows _ hrow
  inRange t ht := by
    have hrun := (le_of_mem_taggedRows (mem_sortBy.mp ht)).2
    rwa [Nat.zero_add, ← h.readers] at hrun
  length := h.current.trans h.readers.symm
  run i reader current hreader hcurrent := by
    rw [filter_mergeOrder hascending]
    exact h.run i reader current hreader hcurrent
  heap := h.heap

end Merging

/-! ### The merge of all entries -/

/-- The rows of the run of a chunk of entries. -/
def chunkRows (chunk : List (String × DocumentAccumulator)) : List DocumentRunRow :=
  (collect combineAccumulators chunk).entries.map entryRow

theorem ascending_chunkRows (chunk : List (String × DocumentAccumulator)) :
    Ascending (chunkRows chunk) :=
  List.pairwise_map.mpr (collect combineAccumulators chunk).sorted

/-- A combination keeps the id of its document. -/
theorem documentId_combineAll {accumulators : List DocumentAccumulator}
    {accumulated : DocumentAccumulator}
    (h : combineAll combineAccumulators accumulators = some accumulated) :
    ∃ a ∈ accumulators, accumulated.document.documentId = a.document.documentId := by
  cases accumulators with
  | nil => cases h
  | cons a as =>
    obtain rfl := Option.some.inj h
    have hfold : ∀ (as : List DocumentAccumulator) (a : DocumentAccumulator),
        (as.foldl combineAccumulators a).document.documentId = a.document.documentId := by
      intro as
      induction as with
      | nil => exact fun _ => rfl
      | cons b as ih => exact fun a => ih (combineAccumulators a b)
    exact ⟨a, List.mem_cons_self, hfold as a⟩

/-- The documents of the collected map carry their own ids. -/
theorem documentId_of_get? {entries : List (String × DocumentAccumulator)}
    (hids : ∀ entry ∈ entries, entry.2.document.documentId = entry.1) {documentId : String}
    {accumulated : DocumentAccumulator}
    (h : (collect combineAccumulators entries).get? documentId = some accumulated) :
    accumulated.document.documentId = documentId := by
  rw [get?_collect] at h
  obtain ⟨a, ha, hid⟩ := documentId_combineAll h
  rw [hid]
  exact hids _ (mem_valuesOf.mp ha)

theorem groups_eq_entries {pending : List TaggedRow}
    (hsorted : pending.Pairwise fun t u => t.key < u.key) :
    groups pending = (collect combineAccumulators (pending.map TaggedRow.entry)).entries := by
  cases pending with
  | nil => rfl
  | cons tagged rest =>
    have hids : ((tagged :: rest).map TaggedRow.entry).Pairwise fun p q => p.1 ≤ q.1 := by
      refine List.pairwise_map.mpr (hsorted.imp fun {t u} hlt => ?_)
      rcases Prod.Lex.toLex_lt_toLex.mp hlt with hlt | ⟨heq, -⟩
      · exact hlt.le
      · exact le_of_eq heq
    exact entries_collect hids

section Merge

variable {codec} {entries : List (String × DocumentAccumulator)}

/-- The rows of the runs combine to what the entries combine to. -/
theorem valuesOf_chunkRows (chunks : List (List (String × DocumentAccumulator)))
    (documentId : String) :
    valuesOf documentId ((mergeOrder (chunks.map chunkRows)).map TaggedRow.entry) =
      (chunks.map (valuesOf documentId)).filterMap (combineAll combineAccumulators) := by
  have hascending : ∀ rows ∈ chunks.map chunkRows, Ascending rows := by
    intro rows hrows
    obtain ⟨chunk, -, rfl⟩ := List.mem_map.mp hrows
    exact ascending_chunkRows chunk
  have hrows : (chunks.map chunkRows).flatten.map
      (fun row => (row.documentId, row.accumulated)) =
      chunks.flatMap fun chunk => (collect combineAccumulators chunk).entries := by
    rw [List.map_flatten, List.map_map, List.flatMap_def]
    refine congrArg List.flatten (List.map_congr_left fun chunk _ => ?_)
    rw [Function.comp_apply, chunkRows, List.map_map]
    exact List.map_id _
  rw [valuesOf_mergeOrder hascending, hrows, valuesOf_flatMap_entries]

theorem merge_eq (hcodec : codec.Faithful) {maximumRows : ℕ} {runs : SortedDocumentRuns}
    (h : Holding codec maximumRows entries runs) (hconsistent : Consistent entries)
    (hids : ∀ entry ∈ entries, entry.2.document.documentId = entry.1) {σ : Type}
    (visit : σ → DocumentAccumulator → Result σ) (s : σ) :
    runs.merge codec visit s = do
      let s ← (collect combineAccumulators entries).values.foldlM visit s
      return (⟨(runs.flush codec).runs.length, runs.maximumBufferedDocuments⟩, s) := by
  obtain ⟨-, -, chunks, hflatten, hruns⟩ := h.flush
  set rows := chunks.map chunkRows with hrows
  have hascending : ∀ rows' ∈ rows, Ascending rows' := by
    intro rows' hrows'
    obtain ⟨chunk, -, rfl⟩ := List.mem_map.mp hrows'
    exact ascending_chunkRows chunk
  have hrowIds : ∀ rows' ∈ rows, ∀ row ∈ rows',
      row.accumulated.document.documentId = row.documentId := by
    intro rows' hrows' row hrow
    obtain ⟨chunk, hchunk, rfl⟩ := List.mem_map.mp hrows'
    obtain ⟨entry, hentry, rfl⟩ := List.mem_map.mp hrow
    have hchunkIds : ∀ entry' ∈ chunk, entry'.2.document.documentId = entry'.1 :=
      fun entry' hentry' => hids entry' (hflatten ▸ List.mem_flatten.mpr ⟨chunk, hchunk, hentry'⟩)
    exact documentId_of_get? hchunkIds (SortedMap.get?_eq_some_iff.mpr hentry)
  obtain ⟨state, hopen, hopened⟩ := opened_foldlM hcodec rows hrowIds
  have hpending := hopened.pending hascending hrowIds
  -- the rows of a document can be combined, and combine to its accumulator
  have hgood : Consistent ((mergeOrder rows).map TaggedRow.entry) := by
    intro documentId
    rw [valuesOf_chunkRows]
    have hgroups : Compatible ([] ++ (chunks.map (valuesOf documentId)).flatten) := by
      rw [List.nil_append, ← List.flatMap_def, ← valuesOf_flatten, hflatten]
      exact hconsistent documentId
    exact compatible_mergeable.filterMap hgroups
  have hcollect : collect combineAccumulators ((mergeOrder rows).map TaggedRow.entry) =
      collect combineAccumulators entries := by
    refine SortedMap.ext_get? fun documentId => ?_
    rw [get?_collect, get?_collect, valuesOf_chunkRows,
      combineAll_flatten combineAccumulators_assoc, ← List.flatMap_def, ← valuesOf_flatten,
      hflatten]
  have hlines : (runs.flush codec).runs = rows.map fun rows' => rows'.map (rowLine codec) := by
    rw [hruns, hrows, List.map_map]
    refine List.map_congr_left fun chunk _ => ?_
    rw [Function.comp_apply, chunkLines, chunkRows, List.map_map]
    rfl
  have hfuel : (mergeOrder rows).length < (runs.flush codec).runs.flatten.length + 1 := by
    have hcount : (mergeOrder rows).length = rows.flatten.length := by
      rw [mergeOrder, length_sortBy, ← map_snd_taggedRows 0, List.length_map]
    rw [hcount, hlines, ← List.map_flatten, List.length_map]
    exact Nat.lt_succ_self _
  have hstatistic : (runs.flush codec).maximumBufferedDocuments = runs.maximumBufferedDocuments := by
    unfold SortedDocumentRuns.flush
    split <;> rfl
  have hreaders : (runs.flush codec).runs.map DocumentRunReader.open =
      rows.map fun rows' => DocumentRunReader.open (rows'.map (rowLine codec)) := by
    rw [hlines, List.map_map]
    rfl
  unfold SortedDocumentRuns.merge
  show ((runs.flush codec).runs.map DocumentRunReader.open).foldlM (readFirstRow codec)
    ⟨[], [], []⟩ >>= _ = _
  rw [hreaders, hopen]
  show drainRuns codec visit ((runs.flush codec).runs.flatten.length + 1) state s >>= _ = _
  rw [drainRuns_eq hcodec visit hpending hfuel hgood, groups_eq_entries hpending.sorted, hcollect,
    hstatistic]
  rfl

/-- **External sorting is in-memory grouping.** The runs accept every entry and
never buffer more documents than they may; their merge visits the documents of the
map of all entries, by ascending id and once each, and fails only where a visit
does. The map does not depend on the bound, and holds under each id the combination
of its accumulators. -/
theorem merge_eq_inMemory (codec : RowCodec) (hcodec : codec.Faithful) (maximumRows : ℕ)
    (hminimum : 1 ≤ maximumRows) (hmaximum : maximumRows ≤ 600000)
    (entries : List (String × DocumentAccumulator)) (hconsistent : Consistent entries)
    (hids : ∀ entry ∈ entries, entry.2.document.documentId = entry.1) :
    ∃ empty runs documents, SortedDocumentRuns.new false maximumRows = .ok empty ∧
      empty.addAll codec entries = .ok runs ∧ inMemory entries = .ok documents ∧
      (∀ (σ : Type) (visit : σ → DocumentAccumulator → Result σ) (s : σ),
        runs.merge codec visit s = do
          let s ← documents.values.foldlM visit s
          return (⟨(runs.flush codec).runs.length, runs.maximumBufferedDocuments⟩, s)) ∧
      documents.keys.Pairwise (· < ·) ∧
      documents.values.map (·.document.documentId) = documents.keys ∧
      (∀ documentId, documentId ∈ documents.keys ↔ ∃ a, (documentId, a) ∈ entries) ∧
      (∀ documentId accumulated, documents.get? documentId = some accumulated →
        Combines (valuesOf documentId entries) accumulated) ∧
      (∀ before, before <+: entries → ∃ held, empty.addAll codec before = .ok held ∧
        held.buffered.size ≤ maximumRows ∧ held.maximumBufferedDocuments ≤ maximumRows) := by
  have hbound : ¬ (maximumRows = 0 ∨ maxDocumentRunRows < maximumRows) := by
    rintro (hzero | hlarge)
    · omega
    · exact absurd hlarge (not_lt.mpr hmaximum)
  obtain ⟨runs, hruns, hholding⟩ := @holding_addAll codec _ _ hminimum hconsistent
  refine ⟨⟨maximumRows, SortedMap.empty, [], 0⟩, runs, collect combineAccumulators entries, ?_,
    hruns, inMemory_eq_ok hconsistent,
    fun σ visit s => merge_eq hcodec hholding hconsistent hids visit s,
    List.pairwise_map.mpr (collect combineAccumulators entries).sorted, ?_,
    fun documentId => mem_keys_collect, ?_, ?_⟩
  · rw [SortedDocumentRuns.new, throwIf_bind_of_not hbound]
    rfl
  · rw [SortedMap.values, SortedMap.keys, List.map_map]
    refine List.map_congr_left fun entry hentry => ?_
    exact documentId_of_get? hids (SortedMap.get?_eq_some_iff.mpr hentry)
  · intro documentId accumulated hget
    rw [get?_collect] at hget
    exact combines_of_combineAll (hconsistent documentId) hget
  · rintro before ⟨after, rfl⟩
    have hbefore : Consistent before := fun documentId =>
      compatible_mergeable.sublist _ _ (hconsistent documentId)
        (by rw [valuesOf_append]; exact List.sublist_append_left _ _)
    obtain ⟨held, hheld, hholding'⟩ := @holding_addAll codec _ _ hminimum hbefore
    exact ⟨held, hheld, hholding'.buffered_le, hholding'.statistic_le⟩

end Merge

/-! ### Runs of three entries -/

/-- Fields of numbers as text: a number is a run of `x` closed by `y`, a field is
closed by `z`. -/
def fieldsText (fields : List (List ℕ)) : List Char :=
  fields.flatMap fun field => (field.flatMap fun n => List.replicate n 'x' ++ ['y']) ++ ['z']

def readFieldChar (state : ℕ × List ℕ × List (List ℕ)) (c : Char) :
    ℕ × List ℕ × List (List ℕ) :=
  if c = 'x' then (state.1 + 1, state.2)
  else if c = 'y' then (0, state.2.1 ++ [state.1], state.2.2)
  else (0, [], state.2.2 ++ [state.2.1])

theorem foldl_readFieldChar (fields done : List (List ℕ)) :
    (fieldsText fields).foldl readFieldChar (0, [], done) = (0, [], done ++ fields) := by
  have hnumber : ∀ (n count : ℕ) (rest : List ℕ × List (List ℕ)),
      (List.replicate n 'x').foldl readFieldChar (count, rest) = (count + n, rest) := by
    intro n
    induction n with
    | zero => exact fun _ _ => rfl
    | succ n ih =>
      intro count rest
      rw [List.replicate_succ, List.foldl_cons]
      show (List.replicate n 'x').foldl readFieldChar (count + 1, rest) = _
      rw [ih, Nat.add_assoc, Nat.add_comm 1 n]
  have hfield : ∀ (field read : List ℕ) (done : List (List ℕ)),
      (field.flatMap fun n => List.replicate n 'x' ++ ['y']).foldl readFieldChar (0, read, done) =
        (0, read ++ field, done) := by
    intro field
    induction field with
    | nil =>
      intro read done
      rw [List.append_nil]
      rfl
    | cons n field ih =>
      intro read done
      rw [List.flatMap_cons, List.foldl_append, List.foldl_append, hnumber, Nat.zero_add]
      show (field.flatMap fun n => List.replicate n 'x' ++ ['y']).foldl readFieldChar
        (0, read ++ [n], done) = _
      rw [ih, List.append_assoc]
      rfl
  induction fields generalizing done with
  | nil =>
    rw [List.append_nil]
    rfl
  | cons field fields ih =>
    rw [fieldsText, List.flatMap_cons, List.foldl_append, List.foldl_append, hfield,
      List.nil_append]
    show (fieldsText fields).foldl readFieldChar (0, [], done ++ [field]) = _
    rw [ih, List.append_assoc]
    rfl

theorem fieldsText_chars {fields : List (List ℕ)} {c : Char} (h : c ∈ fieldsText fields) :
    c = 'x' ∨ c = 'y' ∨ c = 'z' := by
  obtain ⟨field, -, hc⟩ := List.mem_flatMap.mp h
  rcases List.mem_append.mp hc with hc | hc
  · obtain ⟨n, -, hc⟩ := List.mem_flatMap.mp hc
    rcases List.mem_append.mp hc with hc | hc
    · exact .inl (List.eq_of_mem_replicate hc)
    · exact .inr (.inl (List.mem_singleton.mp hc))
  · exact .inr (.inr (List.mem_singleton.mp hc))

def stringField (s : String) : List ℕ := s.toList.map Char.toNat

def fieldString (field : List ℕ) : String := String.ofList (field.map Char.ofNat)

theorem fieldString_stringField (s : String) : fieldString (stringField s) = s := by
  rw [fieldString, stringField, List.map_map,
    List.map_congr_left fun c _ => show (Char.ofNat ∘ Char.toNat) c = id c from Char.ofNat_toNat c,
    List.map_id, String.ofList_toList]

def rowFields (row : DocumentRunRow) : List (List ℕ) :=
  let document := row.accumulated.document
  [[(document.occurrenceCount : ℕ), (document.vectorOrdinal : ℕ)], stringField row.documentId,
    stringField document.documentId, stringField document.documentSha256,
    stringField document.documentKind, stringField document.semanticText,
    stringField document.facetsJson, stringField document.relationsJson,
    stringField row.accumulated.primaryRelation] ++
    (row.accumulated.relations.sort (· ≥ ·)).map stringField

def fieldsRow : List (List ℕ) → Option DocumentRunRow
  | [occurrenceCount, vectorOrdinal] :: key :: documentId :: documentSha256 :: documentKind ::
      semanticText :: facetsJson :: relationsJson :: primaryRelation :: relations => do
    let occurrenceCount ← toWidth 64 occurrenceCount
    let vectorOrdinal ← toWidth 64 vectorOrdinal
    return {
      documentId := fieldString key
      accumulated := {
        document := {
          documentId := fieldString documentId
          documentSha256 := fieldString documentSha256
          documentKind := fieldString documentKind
          semanticText := fieldString semanticText
          facetsJson := fieldString facetsJson
          relationsJson := fieldString relationsJson
          occurrenceCount := occurrenceCount
          vectorOrdinal := vectorOrdinal }
        primaryRelation := fieldString primaryRelation
        relations := (relations.map fieldString).toFinset } }
  | _ => none

theorem fieldsRow_rowFields (row : DocumentRunRow) : fieldsRow (rowFields row) = some row := by
  have hrelations : (((row.accumulated.relations.sort (· ≥ ·)).map stringField).map
      fieldString).toFinset = row.accumulated.relations := by
    rw [List.map_map, List.map_congr_left fun s _ =>
      show (fieldString ∘ stringField) s = id s from fieldString_stringField s, List.map_id,
      Finset.sort_toFinset]
  rw [rowFields, List.cons_append]
  simp only [List.cons_append, List.nil_append, fieldsRow, toWidth_eq_some.mpr rfl,
    fieldString_stringField, hrelations]
  rfl

/-- A writer and reader of rows. -/
def sampleCodec : RowCodec where
  encode row := String.ofList (fieldsText (rowFields row))
  decode line := fieldsRow (line.toList.foldl readFieldChar (0, [], [])).2.2

theorem sampleCodec_decode (line : String) :
    sampleCodec.decode line = fieldsRow (line.toList.foldl readFieldChar (0, [], [])).2.2 := rfl

theorem sampleCodec_faithful : sampleCodec.Faithful where
  decode_encode row := by
    have hencode : sampleCodec.encode row = String.ofList (fieldsText (rowFields row)) := rfl
    rw [hencode, sampleCodec_decode, String.toList_ofList, foldl_readFieldChar]
    exact fieldsRow_rowFields row
  line row c hc := by
    rcases fieldsText_chars (String.toList_ofList ▸ hc) with rfl | rfl | rfl <;> decide

def sampleAccumulator (documentId relation : String) : DocumentAccumulator where
  document := {
    documentId := documentId
    documentSha256 := "sha"
    documentKind := "kind"
    semanticText := "text"
    facetsJson := "facets"
    relationsJson := "relations"
    occurrenceCount := 1
    vectorOrdinal := 0 }
  primaryRelation := relation
  relations := {relation}

def sampleEntries : List (String × DocumentAccumulator) :=
  [("b", sampleAccumulator "b" "s"), ("a", sampleAccumulator "a" "r"),
    ("b", sampleAccumulator "b" "r")]

theorem consistent_sampleEntries : Consistent sampleEntries := by
  intro documentId
  -- the values under one id are some of all values, which agree
  have hall : Compatible (sampleEntries.map Prod.snd) := by
    refine ⟨?_, by decide⟩
    have hcontent : ∀ a ∈ sampleEntries.map Prod.snd, a.content = ("sha", "text", "facets") :=
      List.forall_mem_cons.mpr ⟨rfl, List.forall_mem_cons.mpr ⟨rfl, List.forall_mem_cons.mpr
        ⟨rfl, by simp⟩⟩⟩
    intro a ha b hb
    rw [hcontent a ha, hcontent b hb]
  exact compatible_mergeable.sublist _ _ hall (List.filter_sublist.map _)

/-- A buffer of one document: the entries of `b` lie in two runs. -/
theorem sampleEntries_merge :
    ∃ empty runs documents, SortedDocumentRuns.new false 1 = .ok empty ∧
      empty.addAll sampleCodec sampleEntries = .ok runs ∧
      inMemory sampleEntries = .ok documents ∧
      (∀ (σ : Type) (visit : σ → DocumentAccumulator → Result σ) (s : σ),
        runs.merge sampleCodec visit s = do
          let s ← documents.values.foldlM visit s
          return (⟨(runs.flush sampleCodec).runs.length, runs.maximumBufferedDocuments⟩, s)) ∧
      documents.keys.Pairwise (· < ·) ∧
      documents.values.map (·.document.documentId) = documents.keys ∧
      (∀ documentId, documentId ∈ documents.keys ↔ ∃ a, (documentId, a) ∈ sampleEntries) ∧
      (∀ documentId accumulated, documents.get? documentId = some accumulated →
        Combines (valuesOf documentId sampleEntries) accumulated) ∧
      (∀ before, before <+: sampleEntries → ∃ held,
        empty.addAll sampleCodec before = .ok held ∧ held.buffered.size ≤ 1 ∧
        held.maximumBufferedDocuments ≤ 1) :=
  merge_eq_inMemory sampleCodec sampleCodec_faithful 1 (by decide) (by decide) sampleEntries
    consistent_sampleEntries (List.forall_mem_cons.mpr ⟨rfl, List.forall_mem_cons.mpr
      ⟨rfl, List.forall_mem_cons.mpr ⟨rfl, by simp⟩⟩⟩)

end LivefireRag.Builder
