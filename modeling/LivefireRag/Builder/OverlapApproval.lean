import Mathlib.Data.Finset.Sort
import LivefireRag.Lib.Fields
import LivefireRag.Pipeline.DatasetCatalogue
import LivefireRag.Pipeline.PlanTiling
import LivefireRag.Builder.Basic

/-!
# Approving relation overlaps

Whoever builds a catalogue approves each overlap of relations by a text `RELATION=REASON`.
The builder cuts the texts at the first `=`, finds the owners of each relation, and the
validator of the catalogue checks the record that comes of it.

The builder groups owners in sets and the validator in lists, but for datasets in order the
two agree: a list of texts is accepted exactly when it names the overlapping relations, each
once and with a reason (`exists_approveOverlaps_iff`). A relation whose name contains `=` can
not be named, so overlaps can be approved exactly when no overlapping relation has such a
name (`exists_requests_iff`).
-/

namespace LivefireRag.Builder

open Fallible Grouping Pipeline Text

/-- One text: a relation that has not been named, and its reason. -/
def readAllowance (reasons : SortedMap String String) (value : String) :
    Result (SortedMap String String) := do
  let (relation, reason) ← orThrow
    ((splitOnce '=' value).filter fun pair => pair.1 ≠ "" ∧ pair.2 ≠ "")
    (.accountingClosure "relation overlap allowance must be RELATION=REASON")
  throwIf (relation ∈ reasons.keys)
    (.accountingClosure "relation overlap allowance is duplicated")
  return reasons.insert relation reason

/-- The owners of each relation, as sets. -/
def addToOwners (owners : SortedMap String (Finset String)) (entry : CatalogueDatasetEntry) :
    SortedMap String (Finset String) :=
  entry.dataset.includedRelations.foldl
    (fun owners relation => upsert (· ∪ ·) owners (relation, {entry.dataset.id})) owners

/-- The allowance for a relation, with its owners in order. -/
def allowanceFor (owners : SortedMap String (Finset String)) (request : String × String) :
    Result RelationOverlapAllowance := do
  let datasetIds ← orThrow ((owners.get? request.1).filter fun ids => 1 < ids.card)
    (.accountingClosure "relation overlap allowance does not name an overlap")
  return ⟨request.1, datasetIds.sort (· ≤ ·), request.2⟩

def overlapAllowances (datasets : List CatalogueDatasetEntry) (requested : List String) :
    Result (List RelationOverlapAllowance) := do
  let reasons ← requested.foldlM readAllowance SortedMap.empty
  let owners := datasets.foldl addToOwners SortedMap.empty
  reasons.entries.mapM (allowanceFor owners)

/-- The record of the overlaps as the builder makes it and the catalogue checks it. -/
def approveOverlaps (datasets : List CatalogueDatasetEntry) (requested : List String) :
    Result (List RelationOverlapAllowance) := do
  let allowances ← overlapAllowances datasets requested
  (validateOverlapAllowances allowances (relationOwners datasets)
    (datasets.map (·.dataset.id))).mapError .pipeline
  return allowances

/-! ### What the texts name -/

/-- The texts are cut into relations and reasons, each relation once. -/
structure Names (requested : List String) (named : List (String × String)) : Prop where
  cuts : requested.map (splitOnce '=') = named.map some
  nodup : (named.map Prod.fst).Nodup
  reasons : ∀ pair ∈ named, pair.2 ≠ ""

theorem readAllowance_eq_ok {reasons next : SortedMap String String} {value : String} :
    readAllowance reasons value = .ok next ↔ ∃ pair, splitOnce '=' value = some pair ∧
      pair.1 ≠ "" ∧ pair.2 ≠ "" ∧ pair.1 ∉ reasons.keys ∧
        next = reasons.insert pair.1 pair.2 := by
  simp only [readAllowance, bind_eq_ok, orThrow_eq_ok, Option.filter_eq_some_iff, throwIf_eq_ok,
    exists_unit, pure_eq_ok, decide_eq_true_eq, and_assoc]
  constructor
  · rintro ⟨pair, hcut, hrelation, hreason, hnew, rfl⟩
    exact ⟨pair, hcut, hrelation, hreason, hnew, rfl⟩
  · rintro ⟨pair, hcut, hrelation, hreason, hnew, rfl⟩
    exact ⟨pair, hcut, hrelation, hreason, hnew, rfl⟩

/-- After some pairs, the texts name pairs of their own, none of a relation before. -/
theorem foldlM_readAllowance_eq_ok {pre : List (String × String)} {requested : List String}
    {reasons : SortedMap String String} :
    requested.foldlM readAllowance (SortedMap.ofList pre) = .ok reasons ↔
      ∃ named, Names requested named ∧ (∀ pair ∈ named, pair.1 ≠ "") ∧
        (∀ pair ∈ named, pair.1 ∉ pre.map Prod.fst) ∧
        reasons = SortedMap.ofList (pre ++ named) := by
  induction requested generalizing pre with
  | nil =>
    rw [List.foldlM_nil, pure_eq_ok]
    constructor
    · rintro rfl
      refine ⟨[], ⟨rfl, List.nodup_nil, ?_⟩, ?_, ?_, by rw [List.append_nil]⟩ <;>
        exact fun _ h => absurd h List.not_mem_nil
    · rintro ⟨named, hnamed, -, -, rfl⟩
      obtain rfl := List.map_eq_nil_iff.mp hnamed.cuts.symm
      rw [List.append_nil]
  | cons value requested ih =>
    simp only [List.foldlM_cons, bind_eq_ok, readAllowance_eq_ok, SortedMap.mem_keys_ofList]
    constructor
    · rintro ⟨next, ⟨pair, hcut, hrelation, hreason, hnew, rfl⟩, hrest⟩
      rw [← SortedMap.ofList_concat] at hrest
      obtain ⟨named, hnamed, hrelations, hothers, rfl⟩ := ih.mp hrest
      -- the relation of this text is not named again
      have hfresh : ∀ other ∈ named, other.1 ∉ pre.map Prod.fst ∧ other.1 ≠ pair.1 := by
        intro other hother
        have hout := hothers other hother
        rw [List.map_append, List.mem_append, not_or, List.map_singleton,
          List.mem_singleton] at hout
        exact hout
      refine ⟨pair :: named, ⟨?_, ?_, ?_⟩, ?_, ?_, by rw [List.append_assoc]; rfl⟩
      · rw [List.map_cons, List.map_cons, hcut, hnamed.cuts]
      · refine List.nodup_cons.mpr ⟨fun hmem => ?_, hnamed.nodup⟩
        obtain ⟨other, hother, hsame⟩ := List.mem_map.mp hmem
        exact (hfresh other hother).2 hsame
      · exact List.forall_mem_cons.mpr ⟨hreason, hnamed.reasons⟩
      · exact List.forall_mem_cons.mpr ⟨hrelation, hrelations⟩
      · exact List.forall_mem_cons.mpr ⟨hnew, fun other hother => (hfresh other hother).1⟩
    · rintro ⟨named, ⟨hcuts, hnodup, hreasons⟩, hrelations, hothers, rfl⟩
      cases named with
      | nil => exact absurd hcuts (List.cons_ne_nil _ _)
      | cons pair named =>
        obtain ⟨hcut, hrest⟩ := List.cons.inj hcuts
        obtain ⟨hnew, hnodup⟩ := List.nodup_cons.mp hnodup
        obtain ⟨hreason, hreasons⟩ := List.forall_mem_cons.mp hreasons
        obtain ⟨hrelation, hrelations⟩ := List.forall_mem_cons.mp hrelations
        obtain ⟨hout, hothers⟩ := List.forall_mem_cons.mp hothers
        refine ⟨_, ⟨pair, hcut, hrelation, hreason, hout, rfl⟩, ?_⟩
        rw [← SortedMap.ofList_concat]
        refine ih.mpr ⟨named, ⟨hrest, hnodup, hreasons⟩, hrelations, fun other hother => ?_,
          by rw [List.append_assoc]; rfl⟩
        rw [List.map_append, List.mem_append, not_or, List.map_singleton, List.mem_singleton]
        exact ⟨hothers other hother, fun hsame => hnew (hsame ▸ List.mem_map_of_mem hother)⟩

/-! ### Sets of owners and lists of owners -/

section Owners

variable {datasets : List CatalogueDatasetEntry} {relation : String}

theorem addToOwners_eq (datasets : List CatalogueDatasetEntry) :
    datasets.foldl addToOwners SortedMap.empty =
      collect (· ∪ ·) (ownerships (fun id => ({id} : Finset String)) datasets) := by
  rw [collect, ownerships, List.foldl_flatMap]
  congr 1
  funext owners entry
  rw [addToOwners, List.foldl_map]

theorem combineAll_sets {ids : List String} {owners : Finset String} :
    combineAll (· ∪ ·) (ids.map fun id => ({id} : Finset String)) = some owners ↔
      ids ≠ [] ∧ owners = ids.toFinset := by
  have hfold : ∀ (ids : List String) (acc : Finset String),
      (ids.map fun id => ({id} : Finset String)).foldl (· ∪ ·) acc = acc ∪ ids.toFinset := by
    intro ids
    induction ids with
    | nil => exact fun acc => (Finset.union_empty acc).symm
    | cons id ids ih =>
      intro acc
      rw [List.map_cons, List.foldl_cons, ih, Finset.union_assoc, List.toFinset_cons,
        Finset.insert_eq]
  cases ids with
  | nil => exact iff_of_false nofun fun h => h.1 rfl
  | cons id ids =>
    rw [List.map_cons, combineAll, hfold, Option.some.injEq, List.toFinset_cons,
      Finset.insert_eq]
    exact ⟨fun h => ⟨List.cons_ne_nil _ _, h.symm⟩, fun h => h.2.symm⟩

/-- **The two groupings agree.** The set of owners, in order, is the list of owners. -/
theorem allowanceFor_eq_ok (h : OrderedDatasets datasets) {request : String × String}
    {allowance : RelationOverlapAllowance} :
    allowanceFor (datasets.foldl addToOwners SortedMap.empty) request = .ok allowance ↔
      2 ≤ (ownersOf datasets request.1).length ∧
        allowance = ⟨request.1, ownersOf datasets request.1, request.2⟩ := by
  have hsorted := (h.owners request.1).1
  have hnodup := hsorted.imp ne_of_lt
  have hsort : (ownersOf datasets request.1).toFinset.sort (· ≤ ·) =
      ownersOf datasets request.1 :=
    (List.toFinset_sort (· ≤ ·) hnodup).mpr (hsorted.imp le_of_lt)
  have hcard := List.toFinset_card_of_nodup hnodup
  simp only [allowanceFor, bind_eq_ok, orThrow_eq_ok, Option.filter_eq_some_iff, pure_eq_ok,
    decide_eq_true_eq, addToOwners_eq, get?_collect, valuesOf_ownerships h.nodup, combineAll_sets]
  constructor
  · rintro ⟨ids, ⟨⟨-, rfl⟩, hlt⟩, rfl⟩
    rw [hcard] at hlt
    rw [hsort]
    exact ⟨hlt, rfl⟩
  · rintro ⟨hlength, rfl⟩
    refine ⟨_, ⟨⟨List.ne_nil_of_length_pos (Nat.zero_lt_of_lt hlength), rfl⟩, ?_⟩, ?_⟩
    · rw [hcard]
      exact hlength
    · rw [hsort]

/-- The allowance that a pair of a relation and a reason makes. -/
def allowanceOf (datasets : List CatalogueDatasetEntry) (pair : String × String) :
    RelationOverlapAllowance :=
  ⟨pair.1, ownersOf datasets pair.1, pair.2⟩

/-- What the builder records: the relations in order, each with its owners. -/
theorem overlapAllowances_eq_ok (h : OrderedDatasets datasets) {requested : List String}
    {allowances : List RelationOverlapAllowance} :
    overlapAllowances datasets requested = .ok allowances ↔
      ∃ named, Names requested named ∧
        (∀ pair ∈ named, 2 ≤ (ownersOf datasets pair.1).length) ∧
        allowances = (SortedMap.ofList named).entries.map (allowanceOf datasets) := by
  have hread : ∀ reasons, requested.foldlM readAllowance SortedMap.empty = .ok reasons ↔ _ :=
    fun reasons => @foldlM_readAllowance_eq_ok [] requested reasons
  simp only [overlapAllowances, bind_eq_ok, hread]
  constructor
  · rintro ⟨_, ⟨named, hnamed, -, -, rfl⟩, hmap⟩
    have hforall := mapM_eq_ok.mp hmap
    refine ⟨named, hnamed, fun pair hpair => ?_, ?_⟩
    · have hentry := (SortedMap.entries_ofList_perm hnamed.nodup).mem_iff.mpr hpair
      obtain ⟨allowance, -, hallowance⟩ := exists_mem_of_mapM hmap hentry
      exact ((allowanceFor_eq_ok h).mp hallowance).1
    · exact eq_map_of_mapM hmap fun pair _ allowance hallowance =>
        ((allowanceFor_eq_ok h).mp hallowance).2
  · rintro ⟨named, hnamed, hoverlaps, rfl⟩
    have howned : ∀ pair ∈ named, ownersOf datasets pair.1 ≠ [] := fun pair hpair =>
      List.ne_nil_of_length_pos (Nat.zero_lt_of_lt (hoverlaps pair hpair))
    refine ⟨_, ⟨named, hnamed, fun pair hpair => h.relation_ne (howned pair hpair),
      fun _ _ => List.not_mem_nil, rfl⟩, mapM_eq_map fun pair hpair => ?_⟩
    have hmem := (SortedMap.entries_ofList_perm hnamed.nodup).mem_iff.mp hpair
    exact (allowanceFor_eq_ok h).mpr ⟨hoverlaps pair hmem, rfl⟩

/-! ### What is approved -/

theorem approveOverlaps_eq_ok (h : OrderedDatasets datasets) {requested : List String}
    {allowances : List RelationOverlapAllowance} :
    approveOverlaps datasets requested = .ok allowances ↔
      ∃ named, Names requested named ∧
        (∀ relation, relation ∈ named.map Prod.fst ↔
          2 ≤ (ownersOf datasets relation).length) ∧
        allowances = (SortedMap.ofList named).entries.map (allowanceOf datasets) := by
  have hvalid := fun allowances => @validateOverlapAllowances_eq_ok datasets
    (datasets.map (·.dataset.id)) h (fun _ => Iff.rfl) allowances
  simp only [approveOverlaps, bind_eq_ok, exists_unit, mapError_eq_ok, pure_eq_ok,
    overlapAllowances_eq_ok h, hvalid]
  have hkeys : ∀ named : List (String × String),
      ((SortedMap.ofList named).entries.map (allowanceOf datasets)).map (·.relation) =
        (SortedMap.ofList named).keys := by
    intro named
    rw [List.map_map]
    rfl
  constructor
  · rintro ⟨_, ⟨named, hnamed, -, rfl⟩, ⟨hrelations, -⟩, rfl⟩
    refine ⟨named, hnamed, fun relation => ?_, rfl⟩
    rw [← SortedMap.mem_keys_ofList, ← hkeys, hrelations, mem_overlappingRelations h]
  · rintro ⟨named, hnamed, hcovers, rfl⟩
    refine ⟨_, ⟨named, hnamed, fun pair hpair => (hcovers pair.1).mp (List.mem_map_of_mem hpair),
      rfl⟩, ⟨?_, ?_⟩, rfl⟩
    · -- two ascending lists with the same members
      rw [hkeys]
      refine List.Pairwise.eq_of_mem_iff
        (List.pairwise_map.mpr (SortedMap.ofList named).sorted)
        (pairwise_overlappingRelations datasets) fun relation => ?_
      rw [SortedMap.mem_keys_ofList, hcovers, mem_overlappingRelations h]
    · intro allowance hallowance
      obtain ⟨pair, hpair, rfl⟩ := List.mem_map.mp hallowance
      have hmem := (SortedMap.entries_ofList_perm hnamed.nodup).mem_iff.mp hpair
      exact ⟨hnamed.reasons pair hmem, rfl⟩

/-- Texts are accepted exactly when they name the overlaps. -/
theorem exists_approveOverlaps_iff (h : OrderedDatasets datasets) {requested : List String} :
    (∃ allowances, approveOverlaps datasets requested = .ok allowances) ↔
      ∃ named, Names requested named ∧ ∀ relation, relation ∈ named.map Prod.fst ↔
        2 ≤ (ownersOf datasets relation).length := by
  simp only [approveOverlaps_eq_ok h]
  constructor
  · rintro ⟨allowances, named, hnamed, hcovers, -⟩
    exact ⟨named, hnamed, hcovers⟩
  · rintro ⟨named, hnamed, hcovers⟩
    exact ⟨_, named, hnamed, hcovers, rfl⟩

/-- A text that is cut has no `=` in its relation. -/
theorem notMem_of_splitOnce {separator : Char} {value : String} {pair : String × String}
    (h : splitOnce separator value = some pair) : separator ∉ pair.1.toList := by
  rcases notMem_or_joined separator value with hnone | ⟨head, tail, hhead, rfl⟩
  · rw [splitOnce_of_notMem hnone] at h
    cases h
  · rw [splitOnce_joined hhead] at h
    obtain rfl := Option.some.inj h
    exact hhead

/-- The overlaps can be approved exactly when every relation that overlaps can be named. -/
theorem exists_requests_iff (h : OrderedDatasets datasets) :
    (∃ requested allowances, approveOverlaps datasets requested = .ok allowances) ↔
      ∀ relation, 2 ≤ (ownersOf datasets relation).length → '=' ∉ relation.toList := by
  simp only [exists_approveOverlaps_iff h]
  constructor
  · rintro ⟨requested, named, hnamed, hcovers⟩ relation hoverlap
    obtain ⟨pair, hpair, rfl⟩ := List.mem_map.mp ((hcovers relation).mpr hoverlap)
    have hcut : some pair ∈ requested.map (splitOnce '=') :=
      hnamed.cuts ▸ List.mem_map_of_mem hpair
    obtain ⟨value, -, hvalue⟩ := List.mem_map.mp hcut
    exact notMem_of_splitOnce hvalue
  · intro hnameable
    -- one text for each overlap
    refine ⟨(overlappingRelations datasets).map fun relation => joined '=' relation "approved",
      (overlappingRelations datasets).map fun relation => (relation, "approved"),
      ⟨?_, ?_, ?_⟩, fun relation => ?_⟩
    · rw [List.map_map, List.map_map]
      refine List.map_congr_left fun relation hrelation => splitOnce_joined ?_
      exact hnameable relation ((mem_overlappingRelations h).mp hrelation)
    · rw [List.map_map]
      exact (List.map_id (overlappingRelations datasets)).symm ▸
        (pairwise_overlappingRelations datasets).imp ne_of_lt
    · intro pair hpair
      obtain ⟨relation, -, rfl⟩ := List.mem_map.mp hpair
      exact (by decide : "approved" ≠ "")
    · rw [← mem_overlappingRelations h, List.map_map]
      exact iff_of_eq (congrArg (relation ∈ ·) (List.map_id (overlappingRelations datasets)))

end Owners

/-- **Overlap approval.** For datasets in order, texts are accepted exactly when they name the
relations that at least two datasets include, each once and with a reason; the record then
has these relations in order, each with its owners. Some texts are accepted exactly when no
such relation has `=` in its name. -/
theorem overlapApproval_exact {datasets : List CatalogueDatasetEntry}
    (h : OrderedDatasets datasets) :
    (∀ requested, (∃ allowances, approveOverlaps datasets requested = .ok allowances) ↔
      ∃ named : List (String × String),
        requested.map (splitOnce '=') = named.map some ∧ (named.map Prod.fst).Nodup ∧
        (∀ pair ∈ named, requireText pair.2 = .ok ()) ∧
        ∀ relation, relation ∈ named.map Prod.fst ↔
          2 ≤ (ownersOf datasets relation).length) ∧
    (∀ requested allowances, approveOverlaps datasets requested = .ok allowances →
      (∀ relation, relation ∈ allowances.map (·.relation) ↔
        2 ≤ (ownersOf datasets relation).length) ∧
      (allowances.map (·.relation)).Pairwise (· < ·) ∧
      ∀ allowance ∈ allowances, allowance.datasetIds = ownersOf datasets allowance.relation) ∧
    ((∃ requested allowances, approveOverlaps datasets requested = .ok allowances) ↔
      ∀ relation, 2 ≤ (ownersOf datasets relation).length → '=' ∉ relation.toList) := by
  refine ⟨fun requested => ?_, fun requested allowances haccepted => ?_, exists_requests_iff h⟩
  · rw [exists_approveOverlaps_iff h]
    constructor
    · rintro ⟨named, ⟨hcuts, hnodup, hreasons⟩, hcovers⟩
      exact ⟨named, hcuts, hnodup, fun pair hpair => requireText_eq_ok.mpr (hreasons pair hpair),
        hcovers⟩
    · rintro ⟨named, hcuts, hnodup, hreasons, hcovers⟩
      exact ⟨named, ⟨hcuts, hnodup, fun pair hpair => requireText_eq_ok.mp (hreasons pair hpair)⟩,
        hcovers⟩
  · obtain ⟨named, -, hcovers, rfl⟩ := (approveOverlaps_eq_ok h).mp haccepted
    have hkeys : ((SortedMap.ofList named).entries.map (allowanceOf datasets)).map (·.relation) =
        (SortedMap.ofList named).keys := by
      rw [List.map_map]
      rfl
    rw [hkeys]
    refine ⟨fun relation => SortedMap.mem_keys_ofList.trans (hcovers relation),
      List.pairwise_map.mpr (SortedMap.ofList named).sorted, fun allowance hallowance => ?_⟩
    obtain ⟨pair, -, rfl⟩ := List.mem_map.mp hallowance
    rfl

/-! ### Two datasets of one relation -/

def sampleArtifact : CatalogueArtifactRef := ⟨⟨"d0", isSafeRelativePath_d0⟩, sampleComponent "artifact"⟩

/-- A dataset of one relation. -/
def sampleEntry (id relation : String) : CatalogueDatasetEntry where
  dataset := { sampleDataset with id, includedRelations := [relation] }
  datasetSha256 := hexDigest 1
  projectionPolicy := sampleComponent "projection"
  preparedCorpus := sampleArtifact
  embeddingPlan := sampleArtifact
  embeddingResultSet := sampleArtifact
  embeddingProfile := sampleComponent "profile"
  finalIndex := sampleArtifact
  searchableDocumentCount := 1
  searchableReferenceCount := 1
  testOnly := false

theorem orderedDatasets_sample {relation : String} (h : relation ≠ "") :
    OrderedDatasets [sampleEntry "a" relation, sampleEntry "b" relation] := by
  have hrelations : ∀ id, requireSortedUnique
      (sampleEntry id relation).dataset.includedRelations = .ok () := fun id =>
    requireSortedUnique_eq_ok.mpr
      ⟨fun value hvalue => List.mem_singleton.mp hvalue ▸ h, List.pairwise_singleton _ _⟩
  refine ⟨?_, ?_, ?_⟩
  · simp only [List.forall_mem_cons]
    exact ⟨(by decide : requireText "a" = .ok ()), (by decide : requireText "b" = .ok ()),
      fun _ h => absurd h List.not_mem_nil⟩
  · simp only [List.forall_mem_cons]
    exact ⟨hrelations "a", hrelations "b", fun _ h => absurd h List.not_mem_nil⟩
  · exact List.pairwise_pair.mpr (by decide : "a" < "b")

theorem ownersOf_sample (relation : String) :
    ownersOf [sampleEntry "a" relation, sampleEntry "b" relation] relation = ["a", "b"] := by
  simp [ownersOf, sampleEntry]

/-- A relation with a plain name can be approved. -/
theorem shared_approved : ∃ requested allowances,
    approveOverlaps [sampleEntry "a" "shared", sampleEntry "b" "shared"] requested =
      .ok allowances := by
  refine (overlapApproval_exact (orderedDatasets_sample (by decide))).2.2.mpr ?_
  intro relation hoverlap
  obtain rfl : relation = "shared" := by
    by_contra hne
    simp [ownersOf, sampleEntry, hne] at hoverlap
  decide

/-- A relation `a=b` overlaps, and no texts approve it. -/
theorem separator_unapproved :
    OrderedDatasets [sampleEntry "a" "a=b", sampleEntry "b" "a=b"] ∧
      ¬ ∃ requested allowances,
        approveOverlaps [sampleEntry "a" "a=b", sampleEntry "b" "a=b"] requested =
          .ok allowances := by
  have hordered := orderedDatasets_sample (by decide : "a=b" ≠ "")
  refine ⟨hordered, fun happroved => ?_⟩
  have hnameable := (exists_requests_iff hordered).mp happroved "a=b"
  rw [ownersOf_sample] at hnameable
  exact hnameable (by decide) (by decide)

end LivefireRag.Builder
