import Mathlib.Data.List.Nodup
import LivefireRag.Pipeline.PlanSpec

/-!
# An accepted plan tiles the corpus

The rows of a corpus in ordinal order are the pairs (object path, row index) of
its objects, one object after the other (`rowPairs`). A slice names a run of
them (`slicePairs`).

Placing a slice at the start of its object, the cumulative row count of the
objects before it (`objectStart`), turns it into a range of ordinals. The three
checks of a plan then compose:

* the objects of an accepted manifest have distinct paths, so a path determines
  one start and one segment of the rows (`slicePairs_eq_segment`);
* the slices of a task tile the task (`SlicesPlaced`);
* the tasks tile the corpus (`TasksAccepted.tiles`).

Cutting the rows along the two tilings gives every row back exactly once and in
order (`TilesCorpus`).
-/

namespace LivefireRag.Pipeline

open Fallible Machine Tiling

/-! ### The rows of a corpus -/

/-- The (path, row index) pairs of the objects, in ordinal order. -/
def rowPairs (objects : List PreparedDocumentObject) : List (SafeRelativePath × ℕ) :=
  objects.flatMap fun object => (List.range object.object.rows).map (object.object.path, ·)

/-- The (path, row index) pairs of a slice. -/
def slicePairs (slice : EmbeddingInputSliceV2) : List (SafeRelativePath × ℕ) :=
  (List.range slice.rows).map fun k => (slice.path, slice.rowOffset + k)

/-- The number of rows of the objects. -/
def rowTotal (objects : List PreparedDocumentObject) : ℕ :=
  (objects.map fun object => (object.object.rows : ℕ)).sum

/-- The ordinal of the first row of the object at a path. -/
def objectStart : List PreparedDocumentObject → SafeRelativePath → ℕ
  | [], _ => 0
  | object :: objects, path =>
    if object.object.path = path then 0 else object.object.rows + objectStart objects path

/-- The ordinal of the first row of a slice. -/
def globalStart (objects : List PreparedDocumentObject) (slice : EmbeddingInputSliceV2) : ℕ :=
  objectStart objects slice.path + slice.rowOffset

/-- The ordinal after the last row of a slice. -/
def globalEnd (objects : List PreparedDocumentObject) (slice : EmbeddingInputSliceV2) : ℕ :=
  globalStart objects slice + slice.rows

@[simp] theorem rowTotal_append (xs ys : List PreparedDocumentObject) :
    rowTotal (xs ++ ys) = rowTotal xs + rowTotal ys := by
  simp [rowTotal]

theorem length_rowPairs (objects : List PreparedDocumentObject) :
    (rowPairs objects).length = rowTotal objects := by
  simp [rowPairs, rowTotal, List.length_flatMap]

theorem nodup_rowPairs {objects : List PreparedDocumentObject}
    (h : (objects.map (·.object.path)).Nodup) : (rowPairs objects).Nodup := by
  refine List.nodup_flatMap.mpr ⟨fun object _ => ?_, ?_⟩
  · exact List.Nodup.map (fun a b hab => (Prod.mk.inj hab).2) List.nodup_range
  · -- rows of different objects have different paths
    refine (List.pairwise_map.mp h).imp fun hne => ?_
    rw [Function.onFun_apply, List.disjoint_left]
    rintro pair ha hb
    obtain ⟨_, -, rfl⟩ := List.mem_map.mp ha
    obtain ⟨_, -, heq⟩ := List.mem_map.mp hb
    exact hne (Prod.mk.inj heq).1.symm

theorem objectStart_append_of_mem {xs ys : List PreparedDocumentObject} {path : SafeRelativePath}
    (h : path ∈ xs.map (·.object.path)) : objectStart (xs ++ ys) path = objectStart xs path := by
  induction xs with
  | nil => exact absurd h List.not_mem_nil
  | cons x xs ih =>
    simp only [List.cons_append, objectStart]
    by_cases hx : x.object.path = path
    · rw [if_pos hx, if_pos hx]
    · rw [if_neg hx, if_neg hx, ih]
      exact (List.mem_cons.mp h).resolve_left (Ne.symm hx)

theorem objectStart_append_of_notMem {xs ys : List PreparedDocumentObject}
    {path : SafeRelativePath} (h : path ∉ xs.map (·.object.path)) :
    objectStart (xs ++ ys) path = rowTotal xs + objectStart ys path := by
  induction xs with
  | nil => simp [rowTotal]
  | cons x xs ih =>
    rw [List.map_cons, List.mem_cons, not_or] at h
    rw [List.cons_append, objectStart, if_neg (Ne.symm h.1), ih h.2]
    simp only [rowTotal, List.map_cons, List.sum_cons]
    omega

/-- An object ends before the corpus does. -/
theorem objectStart_add_rows_le {objects : List PreparedDocumentObject}
    (h : (objects.map (·.object.path)).Nodup) {object : PreparedDocumentObject}
    (hmem : object ∈ objects) :
    objectStart objects object.object.path + object.object.rows ≤ rowTotal objects := by
  obtain ⟨pre, post, rfl⟩ := List.append_of_mem hmem
  have hpre : object.object.path ∉ pre.map (·.object.path) := by
    rw [List.map_append, List.map_cons] at h
    intro hin
    exact (List.nodup_append.mp h).2.2 _ hin _ (List.mem_cons_self ..) rfl
  rw [objectStart_append_of_notMem hpre, objectStart, if_pos rfl]
  simp only [rowTotal, List.map_append, List.map_cons, List.sum_append, List.sum_cons]
  omega

/-- The row at a position inside an object. -/
theorem getElem?_rowPairs {objects : List PreparedDocumentObject}
    (h : (objects.map (·.object.path)).Nodup) {object : PreparedDocumentObject}
    (hmem : object ∈ objects) {k : ℕ} (hk : k < object.object.rows) :
    (rowPairs objects)[objectStart objects object.object.path + k]? =
      some (object.object.path, k) := by
  obtain ⟨pre, post, rfl⟩ := List.append_of_mem hmem
  have hpre : object.object.path ∉ pre.map (·.object.path) := by
    rw [List.map_append, List.map_cons] at h
    intro hin
    exact (List.nodup_append.mp h).2.2 _ hin _ (List.mem_cons_self ..) rfl
  have hsplit : rowPairs (pre ++ object :: post) =
      rowPairs pre ++ ((List.range object.object.rows).map (object.object.path, ·) ++
        rowPairs post) := by
    simp [rowPairs]
  rw [objectStart_append_of_notMem hpre, objectStart, if_pos rfl, Nat.add_zero, hsplit,
    ← length_rowPairs, List.getElem?_append_right (Nat.le_add_right ..), Nat.add_sub_cancel_left,
    List.getElem?_append_left (by simpa using hk), List.getElem?_map, List.getElem?_range hk]
  rfl

/-! ### Placed slices -/

/-- A slice stays inside its object. -/
def SlicePlaced (objects : List PreparedDocumentObject) (slice : EmbeddingInputSliceV2) : Prop :=
  ∃ object ∈ objects, object.object.path = slice.path ∧
    slice.objectSha256 = object.object.sha256 ∧
    (slice.rowOffset : ℕ) + slice.rows ≤ object.object.rows

/-- The rows of a placed slice are the segment of the corpus at its range. -/
theorem slicePairs_eq_segment {objects : List PreparedDocumentObject}
    (h : (objects.map (·.object.path)).Nodup) {slice : EmbeddingInputSliceV2}
    (hplaced : SlicePlaced objects slice) :
    slicePairs slice =
      segment (rowPairs objects) (globalStart objects slice) (globalEnd objects slice) := by
  obtain ⟨object, hmem, hpath, -, hinside⟩ := hplaced
  have hbound := objectStart_add_rows_le h hmem
  rw [hpath] at hbound
  apply List.ext_getElem?
  intro k
  by_cases hk : k < slice.rows
  · have hrow := getElem?_rowPairs h hmem (k := slice.rowOffset + k) (by omega)
    rw [hpath, ← Nat.add_assoc] at hrow
    rw [getElem?_segment (by unfold globalEnd; omega), globalStart, hrow, slicePairs,
      List.getElem?_map, List.getElem?_range hk]
    rfl
  · rw [List.getElem?_eq_none, List.getElem?_eq_none]
    · rw [length_segment (by rw [length_rowPairs]; unfold globalEnd globalStart; omega)]
      unfold globalEnd
      omega
    · simpa [slicePairs] using hk

/-- The slices of a task lie inside their objects and tile the task. -/
structure SlicesPlaced (objects : List PreparedDocumentObject) (task : EmbeddingTaskV2) : Prop where
  placed : ∀ slice ∈ task.inputSlices, SlicePlaced objects slice
  tiles : Tiles (globalStart objects) (globalEnd objects) task.ordinalStart task.inputSlices
    task.ordinalEnd

/-! ### The check against the manifest -/

/-- The map of starts: a path is bound to its object and the start of it. -/
def StartsOf (objects : List PreparedDocumentObject) (starts : ObjectStarts) : Prop :=
  ∀ path start object, starts.get? path = some (start, object) ↔
    object ∈ objects ∧ object.object.path = path ∧ start = objectStart objects path

/-- The pass over the objects succeeds and collects their starts. -/
theorem insertObjectStart_run {objects : List PreparedDocumentObject}
    (h : (objects.map (·.object.path)).Nodup) (htotal : rowTotal objects < 2 ^ 64) :
    ∃ starts, objects.foldlM insertObjectStart (SortedMap.empty, 0) =
      .ok (starts, rowTotal objects) ∧ StartsOf objects starts := by
  have hrun : ∃ state, objects.foldlM insertObjectStart (SortedMap.empty, 0) = .ok state ∧
      state.2 = rowTotal objects ∧ StartsOf objects state.1 := by
    refine foldlM_total (P := fun pre (state : ObjectStarts × ℕ) =>
      state.2 = rowTotal pre ∧ StartsOf pre state.1) ⟨rfl, by simp [StartsOf]⟩ ?_
    rintro pre object post ⟨starts, total⟩ rfl ⟨htot, hstarts⟩
    obtain rfl : total = rowTotal pre := htot
    have hfresh : object.object.path ∉ pre.map (·.object.path) := by
      rw [List.map_append, List.map_cons] at h
      intro hin
      exact (List.nodup_append.mp h).2.2 _ hin _ (List.mem_cons_self ..) rfl
    have hsum : rowTotal (pre ++ object :: post) =
        rowTotal pre + object.object.rows + rowTotal post := by
      simp [rowTotal, Nat.add_assoc]
    have hstep : insertObjectStart (starts, rowTotal pre) object =
        .ok (starts.insert object.object.path (rowTotal pre, object),
          rowTotal pre + object.object.rows) := by
      refine bind_eq_ok.mpr ⟨_, ?_, rfl⟩
      rw [orThrow_eq_ok, checkedAdd_eq_some]
      exact ⟨by omega, rfl⟩
    refine ⟨_, hstep, by simp [rowTotal], fun path start other => ?_⟩
    rw [SortedMap.get?_insert]
    by_cases hpath : path = object.object.path
    · -- the new object's path was not bound before
      subst hpath
      rw [if_pos rfl, objectStart_append_of_notMem hfresh, objectStart, if_pos rfl,
        Option.some.injEq, Prod.mk.injEq, List.mem_append, List.mem_singleton]
      constructor
      · rintro ⟨rfl, rfl⟩
        exact ⟨Or.inr rfl, rfl, rfl⟩
      · rintro ⟨hmem | rfl, hother, rfl⟩
        · exact absurd (hother ▸ List.mem_map_of_mem hmem) hfresh
        · exact ⟨rfl, rfl⟩
    · rw [if_neg hpath, hstarts path start other, List.mem_append, List.mem_singleton]
      constructor
      · rintro ⟨hmem, hother, rfl⟩
        refine ⟨Or.inl hmem, hother, (objectStart_append_of_mem ?_).symm⟩
        exact hother ▸ List.mem_map_of_mem hmem
      · rintro ⟨hmem | rfl, hother, rfl⟩
        · refine ⟨hmem, hother, objectStart_append_of_mem ?_⟩
          exact hother ▸ List.mem_map_of_mem hmem
        · exact absurd hother.symm hpath
  obtain ⟨⟨starts, total⟩, hrun, rfl, hstarts⟩ := hrun
  exact ⟨starts, hrun, hstarts⟩

section Place

variable {objects : List PreparedDocumentObject} {starts : ObjectStarts} {task : EmbeddingTaskV2}

/-- One slice passes when it stays in its object, starts where the slice before
it stopped and does not leave the task. -/
theorem validateV2SlicePlace_eq_ok (hnodup : (objects.map (·.object.path)).Nodup)
    (htotal : rowTotal objects < 2 ^ 64) (hstarts : StartsOf objects starts) {next stop : ℕ}
    {slice : EmbeddingInputSliceV2} :
    validateV2SlicePlace starts task next slice = .ok stop ↔
      SlicePlaced objects slice ∧ globalStart objects slice = next ∧
        globalEnd objects slice ≤ task.ordinalEnd ∧ globalEnd objects slice = stop := by
  simp only [validateV2SlicePlace, bind_eq_ok, orThrow_eq_ok, checkedAdd_eq_some, throwIf_eq_ok,
    exists_unit, pure_eq_ok, not_or, not_not, not_lt]
  constructor
  · rintro ⟨⟨start, object⟩, hget, _, ⟨-, rfl⟩, _, ⟨-, rfl⟩, _, ⟨-, rfl⟩,
      ⟨hsha, hinside, rfl, hend⟩, rfl⟩
    obtain ⟨hmem, hpath, rfl⟩ := (hstarts _ _ _).mp hget
    rw [globalEnd, globalStart, Nat.add_assoc]
    exact ⟨⟨object, hmem, hpath, hsha, hinside⟩, rfl, hend, rfl⟩
  · rintro ⟨⟨object, hmem, hpath, hsha, hinside⟩, rfl, hend, rfl⟩
    have hbound := objectStart_add_rows_le hnodup hmem
    rw [hpath] at hbound
    refine ⟨(_, object), (hstarts _ _ _).mpr ⟨hmem, hpath, rfl⟩, _, ⟨by omega, rfl⟩, _,
      ⟨by omega, rfl⟩, _, ⟨by omega, rfl⟩, ⟨hsha, hinside, rfl, ?_⟩, ?_⟩
    · rwa [globalEnd, globalStart, Nat.add_assoc] at hend
    · rw [globalEnd, globalStart, Nat.add_assoc]

/-- The slices of a task pass when they tile it, by induction on the slices. -/
theorem validateV2SlicesPlace_eq_ok (task : EmbeddingTaskV2)
    (hnodup : (objects.map (·.object.path)).Nodup)
    (htotal : rowTotal objects < 2 ^ 64) (hstarts : StartsOf objects starts) (next : ℕ)
    {slices : List EmbeddingInputSliceV2} (hpos : ∀ slice ∈ slices, 0 < (slice.rows : ℕ)) :
    slices.foldlM (validateV2SlicePlace starts task) next = .ok (task.ordinalEnd : ℕ) ↔
      (∀ slice ∈ slices, SlicePlaced objects slice) ∧
        Tiles (globalStart objects) (globalEnd objects) next slices task.ordinalEnd := by
  induction slices generalizing next with
  | nil => simp
  | cons slice slices ih =>
    rw [List.forall_mem_cons] at hpos
    have hlt : globalStart objects slice < globalEnd objects slice := by
      unfold globalEnd
      omega
    simp only [List.foldlM_cons, bind_eq_ok, List.forall_mem_cons, tiles_cons,
      validateV2SlicePlace_eq_ok hnodup htotal hstarts]
    constructor
    · rintro ⟨_, ⟨hplaced, hstart, -, rfl⟩, hrest⟩
      obtain ⟨hplaceds, htiles⟩ := (ih _ hpos.2).mp hrest
      exact ⟨⟨hplaced, hplaceds⟩, hstart, hlt, htiles⟩
    · rintro ⟨⟨hplaced, hplaceds⟩, hstart, -, htiles⟩
      exact ⟨_, ⟨hplaced, hstart, htiles.le, rfl⟩, (ih _ hpos.2).mpr ⟨hplaceds, htiles⟩⟩

end Place

theorem validateV2SlicesAgainstManifest_eq_ok {objects : List PreparedDocumentObject}
    {tasks : List EmbeddingTaskV2} (hnodup : (objects.map (·.object.path)).Nodup)
    (htotal : rowTotal objects < 2 ^ 64)
    (hpos : ∀ task ∈ tasks, ∀ slice ∈ task.inputSlices, 0 < (slice.rows : ℕ)) {u : Unit} :
    validateV2SlicesAgainstManifest tasks objects = .ok u ↔
      ∀ task ∈ tasks, SlicesPlaced objects task := by
  obtain ⟨starts, hrun, hstarts⟩ := insertObjectStart_run hnodup htotal
  rw [validateV2SlicesAgainstManifest, hrun, ok_bind, forM_eq_ok]
  refine forall₂_congr fun task htask => ?_
  have hspec := validateV2SlicesPlace_eq_ok task hnodup htotal hstarts task.ordinalStart
    (hpos task htask)
  simp only [bind_eq_ok, throwIf_eq_ok, not_not, exists_eq_right]
  rw [hspec]
  exact ⟨fun ⟨h1, h2⟩ => ⟨h1, h2⟩, fun h => ⟨h.placed, h.tiles⟩⟩

/-! ### The tiling of the corpus -/

/-- Ordinal `n` is a row of the slice: the slice names the row the manifest has
at position `n`. -/
def SliceCovers (objects : List PreparedDocumentObject) (slice : EmbeddingInputSliceV2)
    (n : ℕ) : Prop :=
  ∃ pair ∈ slicePairs slice, (rowPairs objects)[n]? = some pair

/-- Ordinal `n` is in the range of the task. -/
def TaskCovers (task : EmbeddingTaskV2) (n : ℕ) : Prop :=
  (task.ordinalStart : ℕ) ≤ n ∧ n < task.ordinalEnd

/-- The tasks and slices tile the corpus exactly once. -/
structure TilesCorpus (tasks : List EmbeddingTaskV2) (objects : List PreparedDocumentObject)
    (documentCount : ℕ) : Prop where
  /-- Walking tasks and slices enumerates the rows of the manifest in order. -/
  enumerates : (tasks.flatMap fun task => task.inputSlices.flatMap slicePairs) = rowPairs objects
  /-- The manifest has one row for each ordinal. -/
  row_count : (rowPairs objects).length = documentCount
  /-- Every ordinal lies in exactly one task and exactly one slice of it. -/
  covers : ∀ n < documentCount, ∃ (i j : ℕ) (task : EmbeddingTaskV2) (slice : EmbeddingInputSliceV2),
    (tasks[i]? = some task ∧ TaskCovers task n) ∧
    (task.inputSlices[j]? = some slice ∧ SliceCovers objects slice n) ∧
    (∀ (i' : ℕ) (task' : EmbeddingTaskV2), tasks[i']? = some task' → TaskCovers task' n → i' = i) ∧
    ∀ (i' j' : ℕ) (task' : EmbeddingTaskV2) (slice' : EmbeddingInputSliceV2),
      tasks[i']? = some task' → task'.inputSlices[j']? = some slice' →
      SliceCovers objects slice' n → i' = i ∧ j' = j
  /-- Every slice stays inside its object. -/
  inside : ∀ task ∈ tasks, ∀ slice ∈ task.inputSlices, SlicePlaced objects slice
  ids_nodup : (tasks.map (·.taskId)).Nodup
  paths_nodup : (outputPaths tasks).Nodup

/-- In a corpus with distinct paths a placed slice covers exactly its range. -/
theorem sliceCovers_iff {objects : List PreparedDocumentObject}
    (hnodup : (objects.map (·.object.path)).Nodup) {slice : EmbeddingInputSliceV2}
    (hplaced : SlicePlaced objects slice) {n : ℕ} (hn : n < rowTotal objects) :
    SliceCovers objects slice n ↔
      globalStart objects slice ≤ n ∧ n < globalEnd objects slice := by
  rw [SliceCovers, slicePairs_eq_segment hnodup hplaced]
  simp only [mem_segment]
  rw [← length_rowPairs] at hn
  constructor
  · rintro ⟨pair, ⟨m, hlo, hhi, hm⟩, hpair⟩
    -- rows are distinct, so the pair occurs at one position only
    obtain rfl : m = n := by
      obtain ⟨hm', hmv⟩ := List.getElem?_eq_some_iff.mp hm
      obtain ⟨hn', hnv⟩ := List.getElem?_eq_some_iff.mp hpair
      exact (List.Nodup.getElem_inj_iff (nodup_rowPairs hnodup)).mp (hmv.trans hnv.symm)
    exact ⟨hlo, hhi⟩
  · rintro ⟨hlo, hhi⟩
    exact ⟨_, ⟨n, hlo, hhi, List.getElem?_eq_getElem hn⟩, List.getElem?_eq_getElem hn⟩

/-- The three tilings compose. -/
theorem tilesCorpus_of_placed {prims : Primitives} {limits : TaskLimits}
    {identity : TaskIdentityContext} {tasks : List EmbeddingTaskV2}
    {objects : List PreparedDocumentObject} {documentCount : ℕ}
    (hobjects : ObjectsCover objects documentCount)
    (htasks : TasksAccepted prims limits identity tasks documentCount)
    (hslices : ∀ task ∈ tasks, SlicesPlaced objects task) :
    TilesCorpus tasks objects documentCount := by
  have hnodup := hobjects.paths_nodup
  have htotal : rowTotal objects = documentCount := hobjects.rows_sum
  have hlength : (rowPairs objects).length = documentCount := by
    rw [length_rowPairs, htotal]
  -- a slice covering `n` puts `n` into the range of its task
  have hrange : ∀ n < documentCount, ∀ task ∈ tasks, ∀ slice ∈ task.inputSlices,
      SliceCovers objects slice n →
        (globalStart objects slice ≤ n ∧ n < globalEnd objects slice) ∧ TaskCovers task n := by
    intro n hn task htask slice hslice hcov
    have hplaced := (hslices task htask).placed slice hslice
    have hpos := (sliceCovers_iff hnodup hplaced (by omega)).mp hcov
    have hbounds := (hslices task htask).tiles.bounds hslice
    exact ⟨hpos, by omega, by omega⟩
  refine ⟨?_, hlength, ?_, fun task htask => (hslices task htask).placed, htasks.ids_nodup,
    htasks.paths_nodup⟩
  · -- cut the rows along the tasks, and each task along its slices
    have hinner : ∀ task ∈ tasks, task.inputSlices.flatMap slicePairs =
        segment (rowPairs objects) task.ordinalStart task.ordinalEnd := by
      intro task htask
      rw [← (hslices task htask).tiles.flatMap_segment (rowPairs objects)]
      exact List.flatMap_congr fun slice hslice =>
        slicePairs_eq_segment hnodup ((hslices task htask).placed slice hslice)
    calc (tasks.flatMap fun task => task.inputSlices.flatMap slicePairs)
        = tasks.flatMap fun task =>
            segment (rowPairs objects) task.ordinalStart task.ordinalEnd :=
          List.flatMap_congr hinner
      _ = segment (rowPairs objects) 0 documentCount := htasks.tiles.flatMap_segment _
      _ = rowPairs objects := by rw [← hlength, segment_zero_length]
  · intro n hn
    obtain ⟨i, task, hi, htask⟩ := htasks.tiles.exists_covering (Nat.zero_le n) hn
    have hmem := List.mem_of_getElem? hi
    obtain ⟨j, slice, hj, hslice⟩ := (hslices task hmem).tiles.exists_covering htask.1 htask.2
    have hplaced := (hslices task hmem).placed slice (List.mem_of_getElem? hj)
    refine ⟨i, j, task, slice, ⟨hi, htask⟩,
      ⟨hj, (sliceCovers_iff hnodup hplaced (by omega)).mpr hslice⟩, ?_, ?_⟩
    · intro i' task' hi' htask'
      exact htasks.tiles.covering_unique hi' hi htask' htask
    · intro i' j' task' slice' hi' hj' hcov
      obtain ⟨hslice', htask'⟩ := hrange n hn task' (List.mem_of_getElem? hi') slice'
        (List.mem_of_getElem? hj') hcov
      obtain rfl : i' = i := htasks.tiles.covering_unique hi' hi htask' htask
      obtain rfl : task' = task := Option.some.inj (hi'.symm.trans hi)
      exact ⟨rfl, (hslices task' hmem).tiles.covering_unique hj' hj hslice' hslice⟩

/-- **An accepted plan tiles the corpus exactly once.** -/
theorem validateManifestBinding_tilesCorpus {prims : Primitives} {plan : EmbeddingPlanV2}
    {prepared : PreparedCorpusManifest}
    (h : plan.validateManifestBinding prims prepared = .ok ()) :
    TilesCorpus plan.tasks prepared.documents plan.documentCount := by
  simp only [EmbeddingPlanV2.validateManifestBinding, bind_eq_ok, exists_unit, throwIf_eq_ok,
    not_or, not_not] at h
  obtain ⟨hplan, hprepared, ⟨-, -, hcount, -⟩, hslices⟩ := h
  have hobjects := PreparedCorpusManifest.objectsCover hprepared
  rw [← hcount] at hobjects
  have htasks := EmbeddingPlanV2.tasksAccepted hplan
  have htotal : rowTotal prepared.documents < 2 ^ 64 := by
    have hsum : rowTotal prepared.documents = plan.documentCount := hobjects.rows_sum
    have hlt := plan.documentCount.isLt
    omega
  have hplaced := (validateV2SlicesAgainstManifest_eq_ok hobjects.paths_nodup htotal
    fun task htask slice hslice => ((htasks.accepted task htask).slices slice hslice).rows_pos).mp
      hslices
  exact tilesCorpus_of_placed hobjects htasks hplaced

/-! ### A plan of two tasks

Two objects of two and one documents; the second task crosses from one object
into the other. The stand-ins tell values apart by the integers in them. -/

/-- The digest that spells the last four hexadecimal digits of a number. -/
def hexDigest (n : ℕ) : Digest :=
  ⟨String.ofList (List.replicate 60 '0' ++
      [n / 4096 % 16, n / 256 % 16, n / 16 % 16, n % 16].map Nat.digitChar), by
    have hdigit : ∀ k < 16, IsHexDigit (Nat.digitChar k) := by decide
    rw [IsDigest, String.toList_ofList]
    refine ⟨by simp, fun c hc => ?_⟩
    rcases List.mem_append.mp hc with hc | hc
    · rw [(List.mem_replicate.mp hc).2]
      decide
    · simp only [List.map_cons, List.map_nil, List.mem_cons, List.not_mem_nil, or_false] at hc
      rcases hc with rfl | rfl | rfl | rfl <;> exact hdigit _ (Nat.mod_lt _ (by decide))⟩

mutual

/-- The sum of the integers in a JSON value. -/
def integerSum : Json → ℕ
  | .number (.posInt n) => n
  | .array elements => elementsSum elements
  | .object members => membersSum members
  | _ => 0

def elementsSum : List Json → ℕ
  | [] => 0
  | element :: elements => integerSum element + elementsSum elements

def membersSum : List (String × Json) → ℕ
  | [] => 0
  | member :: members => memberSum member + membersSum members

def memberSum : String × Json → ℕ
  | (_, value) => integerSum value

end

theorem membersSum_eq_sum (members : List (String × Json)) :
    membersSum members = (members.map fun member => integerSum member.2).sum := by
  induction members with
  | nil => rw [membersSum, List.map_nil, List.sum_nil]
  | cons member members ih => rw [membersSum, memberSum, ih, List.map_cons, List.sum_cons]

/-- The integers of an object add up in any order of its fields. -/
theorem integerSum_mkObject {fields : List (String × Json)} (h : (fields.map Prod.fst).Nodup) :
    integerSum (.mkObject fields) = (fields.map fun field => integerSum field.2).sum := by
  rw [Json.mkObject, integerSum, membersSum_eq_sum]
  exact ((SortedMap.entries_ofList_perm h).map _).sum_eq

/-- Stand-ins for the hash, the canonical writer and the reader. -/
def samplePrimitives : Primitives where
  sha256 bytes := hexDigest (bytes.map UInt8.toNat).sum
  canonicalJsonBytes value := List.replicate (integerSum value) 1
  parseJson _ := .ok (.array [])

def sampleComponent (id : String) : ComponentRef := ⟨id, "1", hexDigest 1⟩

def sampleDataset : DatasetIdentity where
  id := "dataset"
  version := "1"
  sourceSnapshot := sampleComponent "snapshot"
  mapping := sampleComponent "mapping"
  sourceAdmission := []
  includedRelations := ["events"]
  excludedRelations := []
  structuredOnlyRelations := []

def sampleObject (path : SafeRelativePath) (rows : U64) : ObjectEntry :=
  ⟨path, rows, 100, hexDigest rows, hexDigest 2⟩

theorem isSafeRelativePath_d0 : IsSafeRelativePath "d0" := by decide

theorem isSafeRelativePath_d1 : IsSafeRelativePath "d1" := by decide

theorem isSafeRelativePath_o0 : IsSafeRelativePath "o0" := by decide

theorem isSafeRelativePath_p0 : IsSafeRelativePath "p0" := by decide

theorem isSafeRelativePath_r0 : IsSafeRelativePath "r0" := by decide

def sampleManifestDraft : PreparedCorpusManifest where
  schemaVersion := preparedCorpusSchema
  componentSha256 := hexDigest 0
  dataset := sampleDataset
  projectionPolicy := sampleComponent "projection"
  documentSchema := sampleComponent "documents"
  occurrenceSchema := sampleComponent "occurrences"
  preparationImplementation := sampleComponent "preparation"
  documentCount := 3
  occurrenceCount := 3
  documentOrderSha256 := hexDigest 3
  embeddingInputOrderSha256 := hexDigest 4
  documents := [
    ⟨sampleObject ⟨"d0", isSafeRelativePath_d0⟩ 2, 0, "a", "b", hexDigest 5⟩,
    ⟨sampleObject ⟨"d1", isSafeRelativePath_d1⟩ 1, 1, "c", "c", hexDigest 6⟩]
  occurrences := [⟨sampleObject ⟨"o0", isSafeRelativePath_o0⟩ 3, 0, "events"⟩]
  relationAccounting := SortedMap.ofList [("events", ⟨3, 3, 3, 0⟩)]

def sampleManifest : PreparedCorpusManifest :=
  { sampleManifestDraft with
    componentSha256 := canonicalDigest samplePrimitives (.mkObject sampleManifestDraft.body) }

def sampleProfile : EmbeddingProfileRef where
  component := sampleComponent "profile"
  modelArtifact := sampleComponent "model"
  tokenizer := sampleComponent "tokenizer"
  maximumInputTokens := 8
  pooling := "last"
  normalization := "l2"
  dimensions := 2
  dtype := "f32le"
  documentFormat := "{semantic_text}"

def sampleTokenizer : ExecutableTokenizerRef where
  artifact := sampleComponent "artifact"
  format := .huggingFaceTokenizerJson
  modelRevision := "1"
  targetTokenizer := sampleComponent "tokenizer"
  addSpecialTokens := true
  maximumInputBytes := 64

/-- A task with its own id filled in. -/
def sampleTask (task : EmbeddingTaskV2) : EmbeddingTaskV2 :=
  { task with
    taskId := (embeddingTaskV2Id samplePrimitives
      ⟨sampleManifest.componentSha256, sampleProfile.component.sha256,
        sampleTokenizer.artifact.sha256⟩
      task.ordinalStart task.ordinalEnd task.embeddingInputOrderSha256
      task.documentTokenCountsSha256 task.tokenCount).val }

def samplePlanDraft : EmbeddingPlanV2 where
  schemaVersion := embeddingPlanV2Schema
  componentSha256 := hexDigest 0
  preparedCorpusSha256 := sampleManifest.componentSha256
  dataset := sampleDataset
  embeddingProfile := sampleProfile
  executableTokenizer := sampleTokenizer
  documentCount := 3
  documentOrderSha256 := hexDigest 3
  documentTokenCountsSha256 := hexDigest 7
  documentTokenCountsObject :=
    ⟨⟨documentTokenCountsPath, by decide⟩, 3, 12, hexDigest 8, hexDigest 7⟩
  tokenStatistics := ⟨5, 2, 2, 2, 2, 2⟩
  maximumTaskTokens := 3
  maximumTaskDocuments := 2
  tasks := [
    sampleTask {
      taskId := "", ordinalStart := 0, ordinalEnd := 1
      inputSlices := [⟨⟨"d0", isSafeRelativePath_d0⟩, hexDigest 2, 0, 1, hexDigest 9, 2, 2, hexDigest 9⟩]
      embeddingInputOrderSha256 := hexDigest 9, tokenCount := 2, maximumDocumentTokens := 2
      documentTokenCountsSha256 := hexDigest 9
      resultPath := ⟨"p0", isSafeRelativePath_p0⟩, receiptPath := ⟨"r0", isSafeRelativePath_r0⟩ },
    sampleTask {
      taskId := "", ordinalStart := 1, ordinalEnd := 3
      inputSlices := [
        ⟨⟨"d0", isSafeRelativePath_d0⟩, hexDigest 2, 1, 1, hexDigest 10, 1, 1, hexDigest 10⟩,
        ⟨⟨"d1", isSafeRelativePath_d1⟩, hexDigest 1, 0, 1, hexDigest 11, 2, 2, hexDigest 11⟩]
      embeddingInputOrderSha256 := hexDigest 12, tokenCount := 3, maximumDocumentTokens := 2
      documentTokenCountsSha256 := hexDigest 12
      resultPath := ⟨"p1", by decide⟩, receiptPath := ⟨"r1", by decide⟩ }]

def samplePlan : EmbeddingPlanV2 :=
  { samplePlanDraft with
    componentSha256 := canonicalDigest samplePrimitives (.mkObject samplePlanDraft.body) }

theorem sampleManifest_validate : sampleManifest.validate samplePrimitives = .ok () :=
  PreparedCorpusManifest.validate_eq_ok.mpr
    ⟨by decide, by decide, rfl, by decide +kernel, by decide, by decide, by decide, by decide,
      by decide +kernel, by decide +kernel, by decide +kernel, by decide +kernel,
      PreparedCorpusManifest.digest_setDigest samplePrimitives sampleManifestDraft⟩

theorem canonicalDigest_samplePrimitives (value : Json) :
    canonicalDigest samplePrimitives value = hexDigest (integerSum value) := by
  show hexDigest ((List.replicate (integerSum value) (1 : UInt8)).map UInt8.toNat).sum = _
  rw [List.map_replicate, List.sum_replicate]
  exact congrArg hexDigest (Nat.mul_one _)

theorem integerSum_embeddingTaskV2Identity (context : TaskIdentityContext) (start stop : U64)
    (order counts : Digest) (tokens : U64) :
    integerSum (embeddingTaskV2Identity context start stop order counts tokens) =
      start + (stop + tokens) := by
  rw [embeddingTaskV2Identity, integerSum_mkObject (by simp)]
  simp [integerSum, toJson]

theorem sampleTask_id (task : EmbeddingTaskV2) : (sampleTask task).taskId =
    ((sampleTask task).expectedId samplePrimitives ⟨sampleManifest.componentSha256,
      sampleProfile.component.sha256, sampleTokenizer.artifact.sha256⟩).val := rfl

/-- The id of a sample task tells its range and its tokens by their sum. -/
theorem sampleTask_taskId (task : EmbeddingTaskV2) : (sampleTask task).taskId =
    (hexDigest (task.ordinalStart + (task.ordinalEnd + task.tokenCount))).val := by
  rw [sampleTask, embeddingTaskV2Id, canonicalDigest_samplePrimitives,
    integerSum_embeddingTaskV2Identity]

theorem samplePlan_tasksAccepted : TasksAccepted samplePrimitives samplePlan.limits
    samplePlan.identityContext samplePlan.tasks samplePlan.documentCount := by
  have hslices : ∀ task ∈ samplePlan.tasks, ∀ slice ∈ task.inputSlices,
      (slice.rowOffset : ℕ) ≤ maxSafeJsonInteger ∧ (slice.rows : ℕ) ≤ maxSafeJsonInteger ∧
        (slice.tokenCount : ℕ) ≤ maxSafeJsonInteger ∧ 0 < (slice.rows : ℕ) ∧
        (slice.rows : ℕ) ≤ slice.tokenCount ∧ 0 < (slice.maximumDocumentTokens : ℕ) ∧
        slice.maximumDocumentTokens ≤ samplePlan.limits.maximumInputTokens ∧
        (slice.maximumDocumentTokens : ℕ) ≤ slice.tokenCount := by decide
  have htasks : ∀ task ∈ samplePlan.tasks, (task.ordinalStart : ℕ) ≤ maxSafeJsonInteger ∧
      (task.ordinalEnd : ℕ) ≤ maxSafeJsonInteger ∧ (task.tokenCount : ℕ) ≤ maxSafeJsonInteger ∧
      (task.ordinalStart : ℕ) < task.ordinalEnd ∧
      (task.inputSlices.map fun slice => (slice.rows : ℕ)).sum = task.rowCount ∧
      task.rowCount ≤ samplePlan.limits.maximumTaskDocuments ∧
      task.rowCount ≤ task.tokenCount ∧ task.tokenCount ≤ samplePlan.limits.maximumTaskTokens ∧
      (task.inputSlices.map fun slice => (slice.tokenCount : ℕ)).sum = task.tokenCount ∧
      (task.inputSlices.map (·.maximumDocumentTokens)).max? = some task.maximumDocumentTokens ∧
      task.maximumDocumentTokens ≤ samplePlan.limits.maximumInputTokens ∧
      (task.maximumDocumentTokens : ℕ) ≤ task.tokenCount := by decide
  have hids : ∀ task ∈ samplePlan.tasks,
      task.taskId = (task.expectedId samplePrimitives samplePlan.identityContext).val := by
    have hcontext : samplePlan.identityContext = ⟨sampleManifest.componentSha256,
        sampleProfile.component.sha256, sampleTokenizer.artifact.sha256⟩ := rfl
    rw [hcontext]
    exact List.forall_mem_cons.mpr ⟨sampleTask_id _,
      List.forall_mem_singleton.mpr (sampleTask_id _)⟩
  have hdigests : samplePlan.tasks.map (·.taskId) = [(hexDigest 3).val, (hexDigest 7).val] := by
    simp only [samplePlan, samplePlanDraft, List.map_cons, List.map_nil, sampleTask_taskId]
    rfl
  refine ⟨fun task htask => ?_, ⟨rfl, by decide, rfl, by decide, rfl⟩, ?_, by decide⟩
  · obtain ⟨h1, h2, h3, h4, h5, h6, h7, h8, h9, h10, h11, h12⟩ := htasks task htask
    refine ⟨h1, h2, h3, fun slice hslice => ?_, hids task htask, h4, h5, h6, h7, h8, h9, h10, h11,
      h12⟩
    obtain ⟨h1, h2, h3, h4, h5, h6, h7, h8⟩ := hslices task htask slice hslice
    exact ⟨h1, h2, h3, h4, h5, h6, h7, h8⟩
  · rw [hdigests]
    decide

theorem samplePlan_validate : samplePlan.validate samplePrimitives = .ok () := by
  have hmetadata : validateTokenCountMetadata samplePlan = .ok () := by decide +kernel
  exact EmbeddingPlanV2.validate_eq_ok.mpr
    ⟨by decide, by decide, rfl, by decide, by decide, by decide +kernel, by decide +kernel,
      ⟨"validation", by decide +kernel⟩, by decide +kernel,
      (validateTokenCountMetadata_eq_ok.mp hmetadata).1, samplePlan_tasksAccepted,
      EmbeddingPlanV2.digest_withDigest samplePrimitives samplePlanDraft⟩

theorem samplePlan_validateManifestBinding :
    samplePlan.validateManifestBinding samplePrimitives sampleManifest = .ok () := by
  have hslices : validateV2SlicesAgainstManifest samplePlan.tasks sampleManifest.documents =
      .ok () := by decide +kernel
  simp only [EmbeddingPlanV2.validateManifestBinding, bind_eq_ok, exists_unit, throwIf_eq_ok,
    not_or, not_not]
  exact ⟨samplePlan_validate, sampleManifest_validate, ⟨rfl, rfl, rfl, rfl⟩, hslices⟩

/-- The sample plan is bound to the sample manifest and tiles it. -/
theorem samplePlan_tilesCorpus :
    samplePlan.validateManifestBinding samplePrimitives sampleManifest = .ok () ∧
      TilesCorpus samplePlan.tasks sampleManifest.documents samplePlan.documentCount :=
  ⟨samplePlan_validateManifestBinding,
    validateManifestBinding_tilesCorpus samplePlan_validateManifestBinding⟩

end LivefireRag.Pipeline
