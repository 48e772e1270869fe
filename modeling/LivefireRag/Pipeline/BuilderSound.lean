import Mathlib.Algebra.Order.BigOperators.Group.List
import LivefireRag.Pipeline.PlanBuilder
import LivefireRag.Pipeline.PlanTiling

/-!
# The builder's plans are accepted

What the builder computes satisfies, by construction, what three separately
written checkers look for.

* The greedy cut tiles the documents with ranges inside both limits
  (`taskRangesFrom_tiles`).
* The slices of a range tile it and stay in their objects (`buildV2Slices_ok`);
  the pass over the objects keeps the part of the range before the current
  object tiled.
* Totals, maxima and digests are those of the runs of counts (`RunCounted`), so
  sums and maxima over slices and over tasks agree by cutting the counts along
  the tilings.

Two things can still make the seal refuse the plan, and the main theorem names
them: a limit on task tokens that is no safe integer, and two tasks whose
identities collide under the hash.
-/

namespace LivefireRag.Pipeline

open Fallible Machine Tiling

/-! ### The greedy cut -/

section Cut

variable {options : TokenBalanceOptions} {counts : List U32}

/-- A task grows within both limits. -/
theorem extendTask_within (rest : List U32) {documents tokens : ℕ}
    (hdocuments : documents ≤ options.maximumTaskDocuments)
    (htokens : tokens ≤ options.maximumTaskTokens) :
    ∃ taken ≤ rest.length, extendTask options rest documents tokens = documents + taken ∧
      documents + taken ≤ options.maximumTaskDocuments ∧
      tokens + ((rest.take taken).map Fin.val).sum ≤ options.maximumTaskTokens := by
  induction rest generalizing documents tokens with
  | nil => exact ⟨0, le_rfl, rfl, hdocuments, htokens⟩
  | cons count rest ih =>
    rw [extendTask]
    split_ifs with hfits
    · obtain ⟨hlt, next, hnext, hle⟩ := hfits
      obtain ⟨-, rfl⟩ := checkedAdd_eq_some.mp hnext
      obtain ⟨taken, htaken, heq, hd, ht⟩ := ih hlt hle
      refine ⟨taken + 1, by simpa using htaken, by rw [heq]; omega, by omega, ?_⟩
      rw [List.take_succ_cons, List.map_cons, List.sum_cons]
      omega
    · exact ⟨0, Nat.zero_le _, rfl, hdocuments, by simpa using htokens⟩

/-- A task takes its first document when that alone is within the limits. -/
theorem extendTask_pos {count : U32} {rest : List U32}
    (hdocuments : (options.maximumTaskDocuments : ℕ) ≠ 0)
    (hcount : (count : ℕ) ≤ options.maximumTaskTokens) :
    0 < extendTask options (count :: rest) 0 0 := by
  have hfits : 0 < (options.maximumTaskDocuments : ℕ) ∧
      ∃ next ∈ checkedAdd 64 0 (count : ℕ), next ≤ options.maximumTaskTokens := by
    refine ⟨Nat.pos_of_ne_zero hdocuments, count, checkedAdd_eq_some.mpr ⟨?_, Nat.zero_add _⟩,
      hcount⟩
    have hlt := count.isLt
    omega
  obtain ⟨taken, -, heq, -, -⟩ := extendTask_within rest
    (show 0 + 1 ≤ (options.maximumTaskDocuments : ℕ) by omega)
    (show 0 + (count : ℕ) ≤ options.maximumTaskTokens by omega)
  rw [extendTask, if_pos hfits, heq]
  omega

/-- A range of documents is inside both limits. -/
def WithinLimits (options : TokenBalanceOptions) (counts : List U32) (range : ℕ × ℕ) : Prop :=
  range.2 - range.1 ≤ options.maximumTaskDocuments ∧
    ((segment counts range.1 range.2).map Fin.val).sum ≤ options.maximumTaskTokens

/-- **The greedy cut tiles the documents**, by induction on the fuel: with one
unit for each document left, the ranges run from `start` to the end. -/
theorem taskRangesFrom_tiles (hdocuments : (options.maximumTaskDocuments : ℕ) ≠ 0)
    (hcounts : ∀ count ∈ counts, (count : ℕ) ≤ options.maximumTaskTokens) {fuel start : ℕ}
    (hstart : start ≤ counts.length) (hfuel : counts.length - start ≤ fuel) :
    ∃ ranges, taskRangesFrom options counts fuel start = .ok ranges ∧
      Tiles Prod.fst Prod.snd start ranges counts.length ∧
      ∀ range ∈ ranges, WithinLimits options counts range := by
  induction fuel generalizing start with
  | zero => exact ⟨[], rfl, by simp only [tiles_nil]; omega, by simp⟩
  | succ fuel ih =>
    rw [taskRangesFrom]
    by_cases hlt : start < counts.length
    · rw [if_pos hlt]
      obtain ⟨taken, htaken, hextend, hd, ht⟩ := extendTask_within (counts.drop start)
        (Nat.zero_le options.maximumTaskDocuments) (Nat.zero_le options.maximumTaskTokens)
      have hpos : 0 < extendTask options (counts.drop start) 0 0 := by
        rw [List.drop_eq_getElem_cons hlt]
        exact extendTask_pos hdocuments (hcounts _ (List.getElem_mem hlt))
      rw [List.length_drop] at htaken
      rw [hextend, Nat.zero_add] at hpos ⊢
      obtain ⟨ranges, hrun, htiles, hwithin⟩ := ih
        (show start + taken ≤ counts.length by omega) (by omega)
      refine ⟨(start, start + taken) :: ranges, ?_, ⟨rfl, by simpa using hpos, htiles⟩, ?_⟩
      · rw [throwIf_bind_of_not (by omega), hrun]
        rfl
      · rw [List.forall_mem_cons]
        refine ⟨⟨?_, ?_⟩, hwithin⟩
        · simp only
          omega
        · simp only [Tiling.segment, Nat.add_sub_cancel_left]
          omega
    · rw [if_neg hlt]
      exact ⟨[], rfl, by simp only [tiles_nil]; omega, by simp⟩

end Cut

/-! ### Runs of counts -/

/-- A corpus with its counts: the objects cover the documents, every document
has a count between 1 and the input limit, and the total is a safe integer. -/
structure CountedCorpus (objects : List PreparedDocumentObject)
    (documents : List PreparedDocumentRow) (counts : List U32) (maximumInputTokens : U32) :
    Prop where
  objects : ObjectsCover objects counts.length
  documents : documents.length = counts.length
  pos : ∀ count ∈ counts, 0 < (count : ℕ)
  le : ∀ count ∈ counts, count ≤ maximumInputTokens
  total_safe : (counts.map Fin.val).sum ≤ maxSafeJsonInteger

/-- The total, the maximum and the digest of the counts of a run of documents. -/
def RunCounted (prims : Primitives) (counts : List U32) (start : U64) (stop : ℕ)
    (tokenCount : U64) (maximum : U32) (digest : Digest) : Prop :=
  sumCounts (segment counts start stop) = .ok tokenCount ∧
    maximumCount (segment counts start stop) = .ok maximum ∧
    documentTokenCountsDigest prims start (segment counts start stop) = .ok digest

theorem length_le_sum {xs : List U32} (h : ∀ x ∈ xs, 0 < (x : ℕ)) :
    xs.length ≤ (xs.map Fin.val).sum := by
  induction xs with
  | nil => simp
  | cons x xs ih =>
    rw [List.forall_mem_cons] at h
    have hrest := ih h.2
    rw [List.length_cons, List.map_cons, List.sum_cons]
    omega

theorem le_sum_of_mem {xs : List U32} {x : U32} (h : x ∈ xs) : (x : ℕ) ≤ (xs.map Fin.val).sum :=
  List.single_le_sum (fun _ _ => Nat.zero_le _) _ (List.mem_map_of_mem h)

section Runs

variable {prims : Primitives} {objects : List PreparedDocumentObject}
  {documents : List PreparedDocumentRow} {counts : List U32} {maximumInputTokens : U32}

theorem CountedCorpus.length_safe
    (h : CountedCorpus objects documents counts maximumInputTokens) :
    counts.length ≤ maxSafeJsonInteger :=
  (length_le_sum h.pos).trans h.total_safe

/-- Every non-empty run has a total, a maximum and a digest. -/
theorem CountedCorpus.exists_run (prims : Primitives)
    (h : CountedCorpus objects documents counts maximumInputTokens) {start : U64} {stop : ℕ} (hlt : (start : ℕ) < stop) (hstop : stop ≤ counts.length) :
    ∃ tokenCount maximum digest,
      RunCounted prims counts start stop tokenCount maximum digest := by
  have hlength := length_segment (a := start) hstop
  have hsafe := h.length_safe
  have htotal : ((segment counts start stop).map Fin.val).sum < 2 ^ 64 := by
    have hle := sum_segment_le (counts.map Fin.val) start stop
    have htot := h.total_safe
    rw [← map_segment] at hle
    unfold maxSafeJsonInteger at htot
    omega
  have hne : segment counts start stop ≠ [] := by
    rw [← List.length_pos_iff, hlength]
    omega
  obtain ⟨maximum, hmax⟩ := Option.isSome_iff_exists.mp (List.isSome_max?_of_ne_nil hne)
  obtain ⟨digest, hdigest⟩ := documentTokenCountsDigest_total prims start
    (segment counts start stop) (by rw [hlength]; omega)
  exact ⟨⟨_, htotal⟩, maximum, digest, sumCounts_eq_ok.mpr rfl, maximumCount_eq_ok.mpr hmax,
    hdigest⟩

/-- What the checkers compare of a counted run. -/
theorem RunCounted.bounds (h : CountedCorpus objects documents counts maximumInputTokens)
    {start tokenCount : U64} {stop : ℕ} {maximum : U32} {digest : Digest}
    (hstop : stop ≤ counts.length)
    (hrun : RunCounted prims counts start stop tokenCount maximum digest) :
    stop - start ≤ (tokenCount : ℕ) ∧ (tokenCount : ℕ) ≤ maxSafeJsonInteger ∧
      0 < (maximum : ℕ) ∧ maximum ≤ maximumInputTokens ∧ (maximum : ℕ) ≤ tokenCount := by
  obtain ⟨htotal, hmax, -⟩ := hrun
  rw [sumCounts_eq_ok] at htotal
  obtain ⟨hmem, -⟩ := List.max?_eq_some_iff.mp (maximumCount_eq_ok.mp hmax)
  have hlength : (segment counts start stop).length ≤ _ :=
    length_le_sum fun x hx => h.pos x (mem_of_mem_segment hx)
  have hle := sum_segment_le (counts.map Fin.val) start stop
  have htot := h.total_safe
  rw [← map_segment] at hle
  rw [length_segment hstop] at hlength
  have hmaxle := le_sum_of_mem hmem
  exact ⟨by omega, by omega, h.pos _ (mem_of_mem_segment hmem), h.le _ (mem_of_mem_segment hmem),
    by omega⟩

/-! ### Slices -/

/-- The totals of a slice are those of its run of counts. -/
def SliceCounted (prims : Primitives) (objects : List PreparedDocumentObject) (counts : List U32)
    (slice : EmbeddingInputSliceV2) : Prop :=
  ∃ start : U64, (start : ℕ) = globalStart objects slice ∧
    RunCounted prims counts start (globalEnd objects slice) slice.tokenCount
      slice.maximumDocumentTokens slice.documentTokenCountsSha256

/-- What the builder makes of a range of documents: slices that stay in their
objects, tile the range and carry the totals of their runs. -/
structure SlicesBuilt (prims : Primitives) (objects : List PreparedDocumentObject)
    (counts : List U32) (start stop : ℕ) (slices : List EmbeddingInputSliceV2) : Prop where
  placed : ∀ slice ∈ slices, SlicePlaced objects slice
  counted : ∀ slice ∈ slices, SliceCounted prims objects counts slice
  tiles : Tiles (globalStart objects) (globalEnd objects) start slices stop

/-- The part of an object that lies in the range becomes the next slice. -/
theorem buildV2Slice_ok (h : CountedCorpus objects documents counts maximumInputTokens)
    {taskStart taskEnd objectStart' objectEnd : U64}
    (hend : (taskEnd : ℕ) ≤ counts.length) {slices : List EmbeddingInputSliceV2}
    {object : PreparedDocumentObject} (hmem : object ∈ objects)
    (hobjectStart : (objectStart' : ℕ) = objectStart objects object.object.path)
    (hobjectEnd : (objectEnd : ℕ) = objectStart' + object.object.rows)
    (hlt : max taskStart objectStart' < min taskEnd objectEnd)
    (hbuilt : SlicesBuilt prims objects counts taskStart (max (taskStart : ℕ) objectStart')
      slices) :
    ∃ slice, buildV2Slice prims documents counts taskStart taskEnd (slices, objectStart') object =
        .ok (slices ++ [slice], objectEnd) ∧
      SlicesBuilt prims objects counts taskStart (min (taskEnd : ℕ) objectEnd)
        (slices ++ [slice]) := by
  have hstop : ((min taskEnd objectEnd : U64) : ℕ) ≤ counts.length :=
    le_trans (Fin.le_def.mp (min_le_left _ _)) hend
  have hstopObject : ((min taskEnd objectEnd : U64) : ℕ) ≤ objectEnd :=
    Fin.le_def.mp (min_le_right _ _)
  have hobject : objectStart' ≤ max taskStart objectStart' := le_max_right _ _
  rw [← Fin.coe_max] at hbuilt
  rw [← Fin.coe_min]
  generalize hs : max taskStart objectStart' = start at *
  generalize ht : min taskEnd objectEnd = stop at *
  rw [Fin.lt_def] at hlt
  obtain ⟨tokenCount, maximum, digest, hrun⟩ := h.exists_run prims hlt hstop
  have hoffset : ((start - objectStart' : U64) : ℕ) = start - objectStart' :=
    Fin.sub_val_of_le hobject
  have hrows : ((stop - start : U64) : ℕ) = stop - start :=
    Fin.sub_val_of_le (Fin.le_def.mpr hlt.le)
  rw [Fin.le_def] at hobject
  refine ⟨⟨object.object.path, object.object.sha256, start - objectStart', stop - start,
    embeddingInputOrderDigest prims (segment documents start stop), tokenCount, maximum, digest⟩,
    ?_, ?_⟩
  · have hnext : toWidth 64 ((objectStart' : ℕ) + object.object.rows) = some objectEnd :=
      toWidth_eq_some.mpr hobjectEnd
    simp only [buildV2Slice, hnext, bind_eq_ok, orThrow_eq_ok, hs, ht, Option.some.injEq,
      exists_eq_left']
    rw [if_pos (Fin.lt_def.mpr hlt)]
    simp only [bind_eq_ok, orThrow_eq_ok, rowRange_eq_some, pure_eq_ok]
    exact ⟨_, ⟨⟨hlt.le, hstop⟩, rfl⟩, _, ⟨⟨hlt.le, h.documents ▸ hstop⟩, rfl⟩, _, hrun.1, _,
      hrun.2.1, _, hrun.2.2, rfl⟩
  · have hstart : globalStart objects ⟨object.object.path, object.object.sha256,
        start - objectStart', stop - start,
        embeddingInputOrderDigest prims (segment documents start stop), tokenCount, maximum,
        digest⟩ = start := by
      simp only [globalStart, hoffset, ← hobjectStart]
      omega
    have hstop' : globalEnd objects ⟨object.object.path, object.object.sha256,
        start - objectStart', stop - start,
        embeddingInputOrderDigest prims (segment documents start stop), tokenCount, maximum,
        digest⟩ = stop := by
      simp only [globalEnd, hstart, hrows]
      omega
    refine ⟨?_, ?_, ?_⟩
    · intro slice hslice
      rcases List.mem_append.mp hslice with hslice | hslice
      · exact hbuilt.placed slice hslice
      · obtain rfl := List.mem_singleton.mp hslice
        refine ⟨object, hmem, rfl, rfl, ?_⟩
        simp only [hoffset, hrows]
        omega
    · intro slice hslice
      rcases List.mem_append.mp hslice with hslice | hslice
      · exact hbuilt.counted slice hslice
      · obtain rfl := List.mem_singleton.mp hslice
        exact ⟨start, hstart.symm, hstop' ▸ hrun⟩
    · have htiles := hbuilt.tiles.concat hstart (by rw [hstart, hstop']; exact hlt)
      rwa [hstop'] at htiles

/-- The slices of a non-empty range of documents. After the objects `pre` the
slices tile the part of the range that lies in them. -/
theorem buildV2Slices_ok (prims : Primitives)
    (h : CountedCorpus objects documents counts maximumInputTokens)
    {taskStart taskEnd : U64} (hlt : (taskStart : ℕ) < taskEnd)
    (hend : (taskEnd : ℕ) ≤ counts.length) :
    ∃ slices, buildV2Slices prims objects documents counts taskStart taskEnd = .ok slices ∧
      SlicesBuilt prims objects counts taskStart taskEnd slices := by
  have htotal : rowTotal objects = counts.length := h.objects.rows_sum
  have hsafe := h.length_safe
  have hrun : ∃ state, objects.foldlM (buildV2Slice prims documents counts taskStart taskEnd)
      ([], 0) = .ok state ∧ ((state.2 : ℕ) = rowTotal objects ∧
        SlicesBuilt prims objects counts taskStart
          (max (taskStart : ℕ) (min (taskEnd : ℕ) (rowTotal objects))) state.1) := by
    refine foldlM_total (P := fun pre (state : List EmbeddingInputSliceV2 × U64) =>
      (state.2 : ℕ) = rowTotal pre ∧
        SlicesBuilt prims objects counts taskStart
          (max (taskStart : ℕ) (min (taskEnd : ℕ) (rowTotal pre))) state.1)
      ⟨rfl, by simp, by simp, by simp [rowTotal]⟩ ?_
    rintro pre object post ⟨slices, objectStart'⟩ hsplit ⟨hobjectStart, hbuilt⟩
    simp only at hobjectStart hbuilt
    have hmem : object ∈ objects := by simp [hsplit]
    have hpos := h.objects.rows_pos object hmem
    have hnotin : object.object.path ∉ pre.map (·.object.path) := by
      have hnodup := h.objects.paths_nodup
      rw [hsplit, List.map_append, List.map_cons] at hnodup
      intro hin
      exact (List.nodup_append.mp hnodup).2.2 _ hin _ (List.mem_cons_self ..) rfl
    have hstart : objectStart objects object.object.path = rowTotal pre := by
      rw [hsplit, objectStart_append_of_notMem hnotin, objectStart, if_pos rfl, Nat.add_zero]
    have hbound := objectStart_add_rows_le h.objects.paths_nodup hmem
    have hpre : rowTotal (pre ++ [object]) = rowTotal pre + object.object.rows := by
      simp [rowTotal]
    have hfits : rowTotal pre + object.object.rows < 2 ^ 64 := by
      unfold maxSafeJsonInteger at hsafe
      omega
    -- the object ends at a machine integer
    obtain ⟨objectEnd, hobjectEnd⟩ : ∃ objectEnd : U64,
        (objectEnd : ℕ) = objectStart' + object.object.rows :=
      ⟨⟨rowTotal pre + object.object.rows, hfits⟩, by rw [hobjectStart]⟩
    by_cases hinside : max taskStart objectStart' < min taskEnd objectEnd
    · have hinside' := hinside
      rw [Fin.lt_def, Fin.coe_max, Fin.coe_min] at hinside'
      have hmid : max (taskStart : ℕ) (min (taskEnd : ℕ) (rowTotal pre)) =
          max (taskStart : ℕ) objectStart' := by
        omega
      rw [hmid] at hbuilt
      obtain ⟨slice, hstep, hnext⟩ := buildV2Slice_ok h hend hmem (hobjectStart.trans hstart.symm)
        hobjectEnd hinside hbuilt
      refine ⟨_, hstep, by rw [hpre, hobjectEnd, hobjectStart], ?_⟩
      have hstop : max (taskStart : ℕ) (min (taskEnd : ℕ) (rowTotal (pre ++ [object]))) =
          min (taskEnd : ℕ) objectEnd := by
        rw [hpre]
        omega
      rwa [hstop]
    · refine ⟨(slices, objectEnd), ?_, by rw [hpre, hobjectEnd, hobjectStart], ?_⟩
      · have hnext : toWidth 64 ((objectStart' : ℕ) + object.object.rows) = some objectEnd :=
          toWidth_eq_some.mpr hobjectEnd
        simp only [buildV2Slice, hnext, bind_eq_ok, orThrow_eq_ok, Option.some.injEq,
          exists_eq_left', if_neg hinside, pure_eq_ok]
      · rw [Fin.lt_def, Fin.coe_max, Fin.coe_min] at hinside
        have hsame : max (taskStart : ℕ) (min (taskEnd : ℕ) (rowTotal (pre ++ [object]))) =
            max (taskStart : ℕ) (min (taskEnd : ℕ) (rowTotal pre)) := by
          rw [hpre]
          omega
        rwa [hsame]
  obtain ⟨⟨slices, objectEnd⟩, hrun, -, hbuilt⟩ := hrun
  have hwhole : max (taskStart : ℕ) (min (taskEnd : ℕ) (rowTotal objects)) = taskEnd := by
    rw [htotal]
    omega
  rw [hwhole] at hbuilt
  have hne : slices ≠ [] := fun hnil => by
    have hlo := hbuilt.tiles.eq_nil_iff.mp hnil
    omega
  refine ⟨slices, ?_, hbuilt⟩
  rw [buildV2Slices, hrun, ok_bind]
  exact throwIf_bind_of_not hne

/-- The slices of a range satisfy the checks of a plan. -/
theorem SlicesBuilt.accepted (h : CountedCorpus objects documents counts maximumInputTokens)
    {start stop : ℕ} {slices : List EmbeddingInputSliceV2} (hstop : stop ≤ counts.length)
    (hbuilt : SlicesBuilt prims objects counts start stop slices) :
    ∀ slice ∈ slices, SliceAccepted maximumInputTokens slice := by
  intro slice hslice
  obtain ⟨object, hmem, -, -, hinside⟩ := hbuilt.placed slice hslice
  obtain ⟨runStart, hrunStart, hrun⟩ := hbuilt.counted slice hslice
  have hrange := hbuilt.tiles.bounds hslice
  have hbounds := hrun.bounds h (by omega)
  have hobject := objectStart_add_rows_le h.objects.paths_nodup hmem
  have htotal : rowTotal objects = counts.length := h.objects.rows_sum
  have hsafe := h.length_safe
  have hrows : globalEnd objects slice - runStart = slice.rows := by
    rw [hrunStart, globalEnd]
    omega
  rw [hrows] at hbounds
  obtain ⟨h1, h2, h3, h4, h5⟩ := hbounds
  have hpos : 0 < (slice.rows : ℕ) := by
    have hlt := hrange.2.1
    unfold globalEnd at hlt
    omega
  exact ⟨by omega, by omega, h2, hpos, h1, h3, h4, h5⟩

/-- The pass over the slices of a task recounts each of them, by induction on
the slices. -/
theorem SlicesBuilt.recounted (h : CountedCorpus objects documents counts maximumInputTokens)
    {start stop : ℕ} {slices : List EmbeddingInputSliceV2} (hstop : stop ≤ counts.length)
    (hbuilt : SlicesBuilt prims objects counts start stop slices) :
    slices.foldlM (validateSliceCounts prims counts) start = .ok stop := by
  induction slices generalizing start with
  | nil =>
    obtain rfl : start = stop := hbuilt.tiles
    rfl
  | cons slice slices ih =>
    obtain ⟨hstart, hlt, hrest⟩ := hbuilt.tiles
    obtain ⟨runStart, hrunStart, hrun⟩ := hbuilt.counted slice (List.mem_cons_self ..)
    have hle := hrest.le
    have hsafe := h.length_safe
    have hend : start + slice.rows = globalEnd objects slice := by rw [globalEnd, hstart]
    have hfits : start + (slice.rows : ℕ) < 2 ^ 64 := by
      unfold maxSafeJsonInteger at hsafe
      omega
    rw [hstart] at hrunStart
    have hstep : validateSliceCounts prims counts start slice = .ok (globalEnd objects slice) := by
      simp only [validateSliceCounts, bind_eq_ok, exists_unit, orThrow_eq_ok, checkedAdd_eq_some,
        rowRange_eq_some, toWidth_eq_some, checkCounts_eq_ok, pure_eq_ok]
      refine ⟨_, ⟨hfits, hend⟩, _, ⟨⟨by omega, by omega⟩, rfl⟩, runStart, hrunStart, ?_, rfl⟩
      rw [← hrunStart]
      exact hrun
    rw [List.foldlM_cons, hstep, ok_bind]
    refine ih ⟨fun s hs => hbuilt.placed s (List.mem_cons_of_mem _ hs),
      fun s hs => hbuilt.counted s (List.mem_cons_of_mem _ hs), hrest⟩

/-! ### Tasks -/

/-- What the builder makes of one range. -/
structure TaskBuilt (prims : Primitives) (identity : TaskIdentityContext)
    (objects : List PreparedDocumentObject) (counts : List U32) (range : ℕ × ℕ)
    (task : EmbeddingTaskV2) : Prop where
  start : (task.ordinalStart : ℕ) = range.1
  stop : (task.ordinalEnd : ℕ) = range.2
  id : task.taskId = (task.expectedId prims identity).val
  run : RunCounted prims counts task.ordinalStart task.ordinalEnd task.tokenCount
    task.maximumDocumentTokens task.documentTokenCountsSha256
  slices : SlicesBuilt prims objects counts task.ordinalStart task.ordinalEnd task.inputSlices
  resultPath : task.resultPath.val = "parts/" ++ task.taskId ++ ".f32"
  receiptPath : task.receiptPath.val = "receipts/" ++ task.taskId ++ ".json"

theorem buildTask_ok (h : CountedCorpus objects documents counts maximumInputTokens)
    {identity : TaskIdentityContext} {range : ℕ × ℕ} (hlt : range.1 < range.2)
    (hstop : range.2 ≤ counts.length) :
    ∃ task, buildTask prims identity objects documents counts range = .ok task ∧
      TaskBuilt prims identity objects counts range task := by
  have hsafe := h.length_safe
  have hfits : range.2 < 2 ^ 64 := by
    unfold maxSafeJsonInteger at hsafe
    omega
  obtain ⟨ordinalStart, hstart⟩ : ∃ x : U64, (x : ℕ) = range.1 := ⟨⟨range.1, by omega⟩, rfl⟩
  obtain ⟨ordinalEnd, hend⟩ : ∃ x : U64, (x : ℕ) = range.2 := ⟨⟨range.2, hfits⟩, rfl⟩
  rw [← hstart, ← hend] at hlt
  rw [← hend] at hstop
  obtain ⟨tokenCount, maximum, digest, hrun⟩ := h.exists_run prims hlt hstop
  obtain ⟨slices, hslices, hbuilt⟩ := buildV2Slices_ok prims h hlt hstop
  have hresult := fun id => isSafeRelativePath_digest ['p', 'a', 'r', 't', 's'] ".f32"
    (by decide) (by decide) (by decide) id
  have hreceipt := fun id => isSafeRelativePath_digest
    ['r', 'e', 'c', 'e', 'i', 'p', 't', 's'] ".json" (by decide) (by decide)
    (by decide) id
  have hparts : String.ofList ['p', 'a', 'r', 't', 's'] ++ "/" = "parts/" := by decide
  have hreceipts : String.ofList ['r', 'e', 'c', 'e', 'i', 'p', 't', 's'] ++ "/" = "receipts/" := by
    decide
  rw [hparts] at hresult
  rw [hreceipts] at hreceipt
  refine ⟨⟨_, ordinalStart, ordinalEnd, slices,
    embeddingInputOrderDigest prims (segment documents range.1 range.2), tokenCount, maximum, digest,
    ⟨_, hresult (embeddingTaskV2Id prims identity ordinalStart ordinalEnd
      (embeddingInputOrderDigest prims (segment documents range.1 range.2)) digest tokenCount)⟩,
    ⟨_, hreceipt (embeddingTaskV2Id prims identity ordinalStart ordinalEnd
      (embeddingInputOrderDigest prims (segment documents range.1 range.2)) digest tokenCount)⟩⟩,
    ?_, hstart, hend, rfl, hrun, hbuilt, rfl, rfl⟩
  simp only [buildTask, bind_eq_ok, orThrow_eq_ok, toWidth_eq_some, SafeRelativePath.new_eq_ok,
    pure_eq_ok]
  refine ⟨_, hstart, _, hend, _, ?_, _, ?_, _, ?_, _, hslices, _, rfl, _, rfl, rfl⟩
  · rw [← hstart, ← hend]
    exact hrun.1
  · rw [← hstart, ← hend]
    exact hrun.2.1
  · rw [← hstart, ← hend]
    exact hrun.2.2

/-- A built task inside the limits satisfies the checks of a plan. -/
theorem TaskBuilt.accepted (h : CountedCorpus objects documents counts maximumInputTokens)
    {identity : TaskIdentityContext} {options : TokenBalanceOptions} {range : ℕ × ℕ}
    {task : EmbeddingTaskV2} (hbuilt : TaskBuilt prims identity objects counts range task)
    (hlt : range.1 < range.2) (hstop : range.2 ≤ counts.length)
    (hlimits : WithinLimits options counts range) :
    TaskAccepted prims
      ⟨options.maximumTaskTokens, options.maximumTaskDocuments, maximumInputTokens⟩ identity
      task := by
  obtain ⟨hdocuments, htokens⟩ := hlimits
  have hsafe := h.length_safe
  rw [← hbuilt.start, ← hbuilt.stop] at hlt hdocuments htokens
  rw [← hbuilt.stop] at hstop
  obtain ⟨h1, h2, h3, h4, h5⟩ := hbuilt.run.bounds h hstop
  obtain ⟨hsum, hmax, -⟩ := hbuilt.run
  rw [sumCounts_eq_ok] at hsum
  rw [maximumCount_eq_ok] at hmax
  have htiles := hbuilt.slices.tiles
  have hcounted := hbuilt.slices.counted
  refine ⟨by omega, by omega, h2, hbuilt.slices.accepted h hstop, hbuilt.id, hlt, ?_, hdocuments,
    h1, Fin.le_def.mpr (hsum ▸ htokens), ?_, ?_, h4, h5⟩
  · have hrows := htiles.sum_length
    rw [EmbeddingTaskV2.rowCount, ← hrows]
    congr 1
    exact List.map_congr_left fun slice _ => by simp [globalEnd]
  · rw [← hsum, map_segment, ← htiles.sum_segment]
    congr 1
    refine List.map_congr_left fun slice hslice => ?_
    obtain ⟨start, hstart, hrun, -⟩ := hcounted slice hslice
    rw [sumCounts_eq_ok, hstart, map_segment] at hrun
    exact hrun.symm
  · rw [← hmax]
    refine htiles.max?_segment fun slice hslice => ?_
    obtain ⟨start, hstart, -, hrun, -⟩ := hcounted slice hslice
    rw [maximumCount_eq_ok, hstart] at hrun
    exact hrun

/-- A built task is recounted from the counts. -/
theorem TaskBuilt.recounted (h : CountedCorpus objects documents counts maximumInputTokens)
    {identity : TaskIdentityContext} {range : ℕ × ℕ} {task : EmbeddingTaskV2}
    (hbuilt : TaskBuilt prims identity objects counts range task)
    (hlt : range.1 < range.2) (hstop : range.2 ≤ counts.length) :
    validateTaskCounts prims counts task = .ok () := by
  rw [← hbuilt.start, ← hbuilt.stop] at hlt
  rw [← hbuilt.stop] at hstop
  simp only [validateTaskCounts, bind_eq_ok, exists_unit, orThrow_eq_ok, rowRange_eq_some,
    checkCounts_eq_ok, throwIf_eq_ok, not_not]
  exact ⟨_, ⟨⟨hlt.le, hstop⟩, rfl⟩, hbuilt.run, _, hbuilt.slices.recounted h hstop, rfl⟩

/-- The tasks the builder computes: one for each range of the greedy cut. -/
theorem plannedTasks_ok (prims : Primitives)
    (h : CountedCorpus objects documents counts maximumInputTokens)
    {identity : TaskIdentityContext} {options : TokenBalanceOptions}
    (hdocuments : (options.maximumTaskDocuments : ℕ) ≠ 0)
    (hcounts : ∀ count ∈ counts, (count : ℕ) ≤ options.maximumTaskTokens) :
    ∃ tasks ranges, plannedTasks prims identity options objects documents counts = .ok tasks ∧
      Tiles Prod.fst Prod.snd 0 ranges counts.length ∧
      (∀ range ∈ ranges, WithinLimits options counts range) ∧
      List.Forall₂ (TaskBuilt prims identity objects counts) ranges tasks := by
  obtain ⟨ranges, hranges, htiles, hwithin⟩ := taskRangesFrom_tiles hdocuments hcounts
    (Nat.zero_le counts.length) le_rfl
  have hbuild : ∀ range ∈ ranges, ∃ task,
      buildTask prims identity objects documents counts range = .ok task ∧
        TaskBuilt prims identity objects counts range task := by
    intro range hrange
    obtain ⟨-, hlt, hstop⟩ := htiles.bounds hrange
    exact buildTask_ok h hlt hstop
  obtain ⟨tasks, htasks, hbuilt⟩ := mapM_total hbuild
  exact ⟨tasks, ranges, bind_eq_ok.mpr ⟨ranges, hranges, htasks⟩, htiles, hwithin, hbuilt⟩

end Runs

/-! ### Identities -/

/-- The JSON value the id of a task is the digest of. -/
def EmbeddingTaskV2.identity (context : TaskIdentityContext) (task : EmbeddingTaskV2) : Json :=
  embeddingTaskV2Identity context task.ordinalStart task.ordinalEnd
    task.embeddingInputOrderSha256 task.documentTokenCountsSha256 task.tokenCount

/-- The hash keeps the identities of the tasks apart. -/
def CollisionFree (prims : Primitives) (context : TaskIdentityContext)
    (tasks : List EmbeddingTaskV2) : Prop :=
  ∀ task ∈ tasks, ∀ other ∈ tasks,
    canonicalDigest prims (task.identity context) = canonicalDigest prims (other.identity context) →
      task.identity context = other.identity context

/-- Nothing collides among identities with distinct digests. -/
theorem collisionFree_of_nodup {prims : Primitives} {context : TaskIdentityContext}
    {tasks : List EmbeddingTaskV2}
    (h : (tasks.map fun task => canonicalDigest prims (task.identity context)).Nodup) :
    CollisionFree prims context tasks := by
  intro task htask other hother heq
  rw [List.inj_on_of_nodup_map h htask hother heq]

/-- Tasks with one identity start at one ordinal. -/
theorem ordinalStart_eq_of_identity_eq {context : TaskIdentityContext}
    {task other : EmbeddingTaskV2} (h : task.identity context = other.identity context) :
    task.ordinalStart = other.ordinalStart := by
  have hvalue : toJson task.ordinalStart = toJson other.ordinalStart :=
    Json.mkObject_inj_field h (by simp) (by simp)
      (show ("ordinal_start", toJson task.ordinalStart) ∈ _ by simp) (by simp)
  apply Fin.ext
  simpa [toJson] using hvalue

/-- Tasks that tile the documents and carry their expected ids have distinct
ids, when the hash keeps their identities apart. -/
theorem nodup_taskIds {prims : Primitives} {context : TaskIdentityContext}
    {tasks : List EmbeddingTaskV2} {documentCount : ℕ}
    (htiles : Tiles (fun task : EmbeddingTaskV2 => (task.ordinalStart : ℕ))
      (fun task => (task.ordinalEnd : ℕ)) 0 tasks documentCount)
    (hids : ∀ task ∈ tasks, task.taskId = (task.expectedId prims context).val)
    (hfree : CollisionFree prims context tasks) : (tasks.map (·.taskId)).Nodup := by
  refine List.pairwise_map.mpr (htiles.pairwise.imp_of_mem ?_)
  intro task other htask hother hbefore hid
  rw [hids task htask, hids other hother] at hid
  have hstart := ordinalStart_eq_of_identity_eq (hfree task htask other hother (Subtype.ext hid))
  have hlt := (htiles.bounds htask).2.1
  rw [hstart] at hlt
  omega

/-- Output paths named after distinct ids are distinct. -/
theorem nodup_outputPaths {tasks : List EmbeddingTaskV2} (hids : (tasks.map (·.taskId)).Nodup)
    (hpaths : ∀ task ∈ tasks, task.resultPath.val = "parts/" ++ task.taskId ++ ".f32" ∧
      task.receiptPath.val = "receipts/" ++ task.taskId ++ ".json") :
    (outputPaths tasks).Nodup := by
  -- the two directories differ in their first character
  have hhead : ∀ a b : String, "parts/" ++ a ++ ".f32" ≠ "receipts/" ++ b ++ ".json" := by
    intro a b h
    have hchars := congrArg (fun s : String => s.toList.head?) h
    simp [String.toList_append] at hchars
  refine List.nodup_flatMap.mpr ⟨fun task htask => ?_, ?_⟩
  · obtain ⟨hresult, hreceipt⟩ := hpaths task htask
    rw [List.nodup_cons, List.mem_singleton]
    refine ⟨fun heq => hhead task.taskId task.taskId ?_, List.nodup_singleton _⟩
    rw [← hresult, ← hreceipt, heq]
  · refine (List.pairwise_map.mp hids).imp_of_mem fun {task other} htask hother hne => ?_
    obtain ⟨hresult, hreceipt⟩ := hpaths task htask
    obtain ⟨hresult', hreceipt'⟩ := hpaths other hother
    rw [Function.onFun_apply, List.disjoint_left]
    intro path hpath hpath'
    simp only [List.mem_cons, List.not_mem_nil, or_false] at hpath hpath'
    rcases hpath with rfl | rfl <;> rcases hpath' with heq | heq
    · exact hne (Text.append_cancel (hresult.symm.trans ((congrArg Subtype.val heq).trans hresult')))
    · exact hhead _ _ (hresult.symm.trans ((congrArg Subtype.val heq).trans hreceipt'))
    · exact hhead _ _ (hresult'.symm.trans ((congrArg Subtype.val heq).symm.trans hreceipt))
    · exact hne (Text.append_cancel (hreceipt.symm.trans ((congrArg Subtype.val heq).trans hreceipt')))

/-! ### The main result -/

/-- A format that takes one text takes the text plans are validated with. -/
theorem formatDocumentInput_validation {format text input : String}
    (h : formatDocumentInput format text = some input) :
    ∃ input', formatDocumentInput format "validation" = some input' := by
  unfold formatDocumentInput at h ⊢
  dsimp only at h ⊢
  split_ifs at h with h1 h2 h3
  rw [not_or, not_or, not_or] at h1
  obtain ⟨-, hformat, hlength, hmatches⟩ := h1
  have hsize : (10 : ℕ) = ("validation" : String).utf8ByteSize := by decide
  refine ⟨Text.replace format documentInputToken "validation", ?_⟩
  rw [if_neg (by rw [not_or, not_or, not_or]; exact ⟨by decide, hformat, hlength, hmatches⟩),
    if_neg h2, if_neg h3]
  have hfits : checkedAdd 64 (format.utf8ByteSize - documentInputToken.utf8ByteSize)
      ("validation" : String).utf8ByteSize =
      some (format.utf8ByteSize - documentInputToken.utf8ByteSize + 10) := by
    rw [checkedAdd_eq_some, ← hsize]
    unfold maxDocumentFormatBytes at hlength
    omega
  rw [hfits, Option.bind_eq_bind, Option.bind_some, if_neg]
  unfold maxFormattedDocumentBytes
  unfold maxDocumentFormatBytes at hlength
  omega

/-- The documents counted by the tokenizer: each formatted document has a count
between 1 and both limits. -/
def CountedWithin (tokenizer : ExactTokenizer) (profile : EmbeddingProfileRef)
    (options : TokenBalanceOptions) (document : PreparedDocumentRow) (count : U32) : Prop :=
  ∃ (input : String) (total : U64),
    formatDocumentInputExact profile.documentFormat document.semanticText = .ok input ∧
      tokenizer.count input = .ok total ∧ (total : ℕ) = count ∧ 1 ≤ (count : ℕ) ∧
      count ≤ profile.maximumInputTokens ∧ (count : ℕ) ≤ options.maximumTaskTokens

theorem documentTokenCount_eq_ok {tokenizer : ExactTokenizer} {profile : EmbeddingProfileRef}
    {options : TokenBalanceOptions} {document : PreparedDocumentRow} {count : U32}
    (h : CountedWithin tokenizer profile options document count) :
    documentTokenCount tokenizer profile options document = .ok count := by
  obtain ⟨input, total, hinput, htotal, hcount, hpos, hinputLimit, htaskLimit⟩ := h
  simp only [documentTokenCount, bind_eq_ok, exists_unit, orThrow_eq_ok, toWidth_eq_some,
    throwIf_eq_ok, pure_eq_ok, not_or, not_lt]
  exact ⟨input, hinput, total, htotal, count, hcount.symm, ⟨by omega, hinputLimit, htaskLimit⟩, rfl⟩

theorem CountedWithin.bounds {tokenizer : ExactTokenizer} {profile : EmbeddingProfileRef}
    {options : TokenBalanceOptions} {documents : List PreparedDocumentRow} {counts : List U32}
    (h : List.Forall₂ (CountedWithin tokenizer profile options) documents counts) :
    ∀ count ∈ counts, 0 < (count : ℕ) ∧ count ≤ profile.maximumInputTokens ∧
      (count : ℕ) ≤ options.maximumTaskTokens := by
  induction h with
  | nil => simp
  | cons hcount _ ih =>
    rw [List.forall_mem_cons]
    obtain ⟨_, _, -, -, -, hpos, hinput, htask⟩ := hcount
    exact ⟨⟨hpos, hinput, htask⟩, ih⟩

section Main

variable {prims : Primitives} {backend : TokenizerBackend} {prepared : PreparedCorpusManifest}
  {documents : List PreparedDocumentRow} {profile : EmbeddingProfileRef}
  {reference : ExecutableTokenizerRef} {tokenizerBytes : List UInt8}
  {options : TokenBalanceOptions} {counts : List U32}

/-- The tasks of the builder pass the checks of the task list. -/
theorem plannedTasks_accepted {context : TaskIdentityContext}
    {objects : List PreparedDocumentObject} {maximumInputTokens : U32}
    (h : CountedCorpus objects documents counts maximumInputTokens)
    {tasks : List EmbeddingTaskV2} {ranges : List (ℕ × ℕ)}
    (htiles : Tiles Prod.fst Prod.snd 0 ranges counts.length)
    (hwithin : ∀ range ∈ ranges, WithinLimits options counts range)
    (hbuilt : List.Forall₂ (TaskBuilt prims context objects counts) ranges tasks)
    (hfree : CollisionFree prims context tasks) :
    TasksAccepted prims
        ⟨options.maximumTaskTokens, options.maximumTaskDocuments, maximumInputTokens⟩ context tasks
        counts.length ∧
      ∀ task ∈ tasks, ∃ range ∈ ranges, TaskBuilt prims context objects counts range task := by
  have hranges : ∀ task ∈ tasks, ∃ range ∈ ranges,
      TaskBuilt prims context objects counts range task := by
    intro task htask
    obtain ⟨i, hi, rfl⟩ := List.mem_iff_getElem.mp htask
    have hi' : i < ranges.length := hbuilt.length_eq ▸ hi
    exact ⟨ranges[i], List.getElem_mem hi', hbuilt.get hi' hi⟩
  have htasks : Tiles (fun task : EmbeddingTaskV2 => (task.ordinalStart : ℕ))
      (fun task => (task.ordinalEnd : ℕ)) 0 tasks counts.length :=
    htiles.forall₂ (hbuilt.imp fun _ _ hb => ⟨hb.start, hb.stop⟩)
  have hids := nodup_taskIds htasks (fun task htask => (hranges task htask).elim
    fun _ hb => hb.2.id) hfree
  refine ⟨⟨fun task htask => ?_, htasks, hids, ?_⟩, hranges⟩
  · obtain ⟨range, hrange, hb⟩ := hranges task htask
    obtain ⟨-, hlt, hstop⟩ := htiles.bounds hrange
    exact hb.accepted h hlt hstop (hwithin range hrange)
  · -- the output paths are named after the ids
    have hpaths : ∀ task ∈ tasks, task.resultPath.val = "parts/" ++ task.taskId ++ ".f32" ∧
        task.receiptPath.val = "receipts/" ++ task.taskId ++ ".json" := by
      intro task htask
      obtain ⟨_, -, hb⟩ := hranges task htask
      exact ⟨hb.resultPath, hb.receiptPath⟩
    exact nodup_outputPaths hids hpaths

/-- The statistics the builder computes pass the checks against the tasks. -/
theorem plannedStatistics_accepted {plan : EmbeddingPlanV2} {objects : List PreparedDocumentObject}
    (h : CountedCorpus objects documents counts plan.embeddingProfile.maximumInputTokens)
    (hne : counts ≠ []) (hcount : (plan.documentCount : ℕ) = counts.length)
    (hbytes : 4 * (plan.documentCount : ℕ) ≤ maxSafeJsonInteger)
    (hstatistics : StatisticsOf counts plan.tokenStatistics)
    (htiles : Tiles (fun task : EmbeddingTaskV2 => (task.ordinalStart : ℕ))
      (fun task => (task.ordinalEnd : ℕ)) 0 plan.tasks counts.length)
    (hruns : ∀ task ∈ plan.tasks, RunCounted prims counts task.ordinalStart task.ordinalEnd
      task.tokenCount task.maximumDocumentTokens task.documentTokenCountsSha256)
    (hobject : plan.documentTokenCountsObject.path.val = documentTokenCountsPath ∧
      plan.documentTokenCountsObject.rows = plan.documentCount ∧
      (plan.documentTokenCountsObject.bytes : ℕ) = counts.length * 4 ∧
      plan.documentTokenCountsObject.documentTokenCountsSha256 =
        plan.documentTokenCountsSha256) : CountMetadataAccepted plan := by
  obtain ⟨hpath, hrows, hobjectBytes, hdigest⟩ := hobject
  have htotal := sumCounts_eq_ok.mp hstatistics.total
  have hwhole : segment counts 0 counts.length = counts := segment_zero_length counts
  have hpos := length_le_sum h.pos
  have hlength := List.length_pos_iff.mpr hne
  obtain ⟨hmem, -⟩ := List.max?_eq_some_iff.mp hstatistics.maximum
  have htotals : (plan.tasks.map fun task => (task.tokenCount : ℕ)).sum =
      plan.tokenStatistics.totalTokens := by
    rw [← htotal, ← hwhole, map_segment, ← htiles.sum_segment]
    congr 1
    refine List.map_congr_left fun task htask => ?_
    have hrun := sumCounts_eq_ok.mp (hruns task htask).1
    rw [map_segment] at hrun
    exact hrun.symm
  have hmaximum : (plan.tasks.map (·.maximumDocumentTokens)).max? =
      some plan.tokenStatistics.maximumTokens := by
    rw [htiles.max?_segment fun task htask => maximumCount_eq_ok.mp (hruns task htask).2.1, hwhole]
    exact hstatistics.maximum
  have hsafe := h.total_safe
  refine ⟨by omega, by omega, hpath, hrows, by omega, hdigest, htotals, ?_, h.le _ hmem,
    hstatistics.p50_le_p90, hstatistics.p90_le_p95, hstatistics.p95_le_p99,
    hstatistics.p99_le_maximum, ?_⟩
  · rw [hmaximum, Option.getD_some]
  · -- the corpus is not empty, and neither is its total
    constructor
    · intro hzero
      omega
    · intro hzero
      omega

/-- The inputs the builder is meant for: an accepted corpus that is not empty, a
profile and a tokenizer bound to it, positive limits, a count within them for
every document, and totals that JSON integers can carry. -/
structure Plannable (prims : Primitives) (backend : TokenizerBackend)
    (prepared : PreparedCorpusManifest) (documents : List PreparedDocumentRow)
    (profile : EmbeddingProfileRef) (reference : ExecutableTokenizerRef)
    (tokenizerBytes : List UInt8) (options : TokenBalanceOptions) (counts : List U32) : Prop where
  prepared_ok : prepared.validate prims = .ok ()
  documents_ok : validatePreparedDocuments prims prepared documents = .ok ()
  profile_ok : profile.validate = .ok ()
  reference_ok : reference.validateForProfile profile = .ok ()
  taskTokens_pos : 0 < (options.maximumTaskTokens : ℕ)
  taskDocuments_pos : 0 < (options.maximumTaskDocuments : ℕ)
  counted : ∃ tokenizer,
    ExactTokenizer.fromBytes prims backend reference tokenizerBytes = .ok tokenizer ∧
      List.Forall₂ (CountedWithin tokenizer profile options) documents counts
  total_safe : (counts.map Fin.val).sum ≤ maxSafeJsonInteger
  bytes_safe : 4 * (prepared.documentCount : ℕ) ≤ maxSafeJsonInteger
  nonempty : documents ≠ []

/-- **The builder's plans are accepted.** For the inputs it is meant for, the
builder returns a plan, and the plan passes the binding to the manifest, the
recount and the rebuild — provided the limit on task tokens is a safe integer
and the hash keeps the identities of the computed tasks apart. -/
theorem buildTokenBalancedPlanWithCounts_accepted
    (hinput : Plannable prims backend prepared documents profile reference tokenizerBytes options
      counts)
    (hsafeTokens : (options.maximumTaskTokens : ℕ) ≤ maxSafeJsonInteger)
    (hfree : ∀ tasks, plannedTasks prims ⟨prepared.componentSha256, profile.component.sha256,
        reference.artifact.sha256⟩ options prepared.documents documents counts = .ok tasks →
      CollisionFree prims ⟨prepared.componentSha256, profile.component.sha256,
        reference.artifact.sha256⟩ tasks) :
    ∃ plan, buildTokenBalancedPlanWithCounts prims backend prepared documents profile reference
        tokenizerBytes options = .ok (plan, counts) ∧
      plan.validateManifestBinding prims prepared = .ok () ∧
      plan.validateDocumentTokenCounts prims counts = .ok () ∧
      plan.validateWithTokenizer prims backend prepared documents tokenizerBytes = .ok () := by
  obtain ⟨hprepared, hdocuments, hprofile, hreference, htaskTokens, htaskDocuments,
    ⟨tokenizer, htokenizer, hcounts⟩, htotal, hbytes, hne⟩ := hinput
  have hlength : documents.length = prepared.documentCount :=
    validatePreparedDocuments_length hdocuments
  have hcountsLength : documents.length = counts.length := hcounts.length_eq
  have hbounds := CountedWithin.bounds hcounts
  have hcountsNe : counts ≠ [] := by
    rw [← List.length_pos_iff, ← hcountsLength]
    exact List.length_pos_iff.mpr hne
  have hcover := PreparedCorpusManifest.objectsCover hprepared
  rw [← hlength, hcountsLength] at hcover
  have hcorpus : CountedCorpus prepared.documents documents counts profile.maximumInputTokens :=
    ⟨hcover, hcountsLength, fun count hc => (hbounds count hc).1,
      fun count hc => (hbounds count hc).2.1, htotal⟩
  -- the tasks
  obtain ⟨tasks, ranges, htasks, htiles, hwithin, hbuilt⟩ := plannedTasks_ok prims
    hcorpus htaskDocuments.ne' fun count hc => (hbounds count hc).2.2
  obtain ⟨haccepted, hranges⟩ := plannedTasks_accepted hcorpus htiles hwithin hbuilt
    (hfree tasks htasks)
  -- the statistics and the counts digest
  have hcountsTotal : (counts.map Fin.val).sum < 2 ^ 64 := by
    unfold maxSafeJsonInteger at htotal
    omega
  have hsum : sumCounts counts = .ok ⟨_, hcountsTotal⟩ := sumCounts_eq_ok.mpr rfl
  obtain ⟨statistics, hstatistics, hshape⟩ := tokenStatistics_of_pos hcountsNe
    (fun hzero => absurd (hbounds 0 hzero).1 (lt_irrefl 0)) hsum
  have hcountsSafe := hcorpus.length_safe
  obtain ⟨digest, hdigest⟩ := documentTokenCountsDigest_total prims 0 counts (by rw [Fin.val_zero]; omega)
  obtain ⟨zero, hzero⟩ : ∃ zero, unsealedDigest = .ok zero := ⟨_, Digest.new_val ⟨_, by decide⟩⟩
  obtain ⟨path, hpath⟩ : ∃ path : SafeRelativePath, path.val = documentTokenCountsPath :=
    ⟨⟨_, by decide⟩, rfl⟩
  obtain ⟨bytes, hcountsBytes⟩ : ∃ bytes : U64, (bytes : ℕ) = counts.length * 4 := by
    refine ⟨⟨counts.length * 4, ?_⟩, rfl⟩
    unfold maxSafeJsonInteger at hbytes
    omega
  -- the plan before it is sealed
  obtain ⟨draft, hdraft⟩ : ∃ draft : EmbeddingPlanV2, draft = {
      schemaVersion := embeddingPlanV2Schema
      componentSha256 := zero
      preparedCorpusSha256 := prepared.componentSha256
      dataset := prepared.dataset
      embeddingProfile := profile
      executableTokenizer := reference
      documentCount := prepared.documentCount
      documentOrderSha256 := prepared.documentOrderSha256
      documentTokenCountsSha256 := digest
      documentTokenCountsObject := {
        path
        rows := prepared.documentCount
        bytes
        sha256 := digestBytes prims (encodeDocumentTokenCounts counts)
        documentTokenCountsSha256 := digest }
      tokenStatistics := statistics
      maximumTaskTokens := options.maximumTaskTokens
      maximumTaskDocuments := options.maximumTaskDocuments
      tasks } := ⟨_, rfl⟩
  have hmetadata : CountMetadataAccepted (draft.withDigest prims) := by
    have hruns : ∀ task ∈ tasks, RunCounted prims counts task.ordinalStart task.ordinalEnd
        task.tokenCount task.maximumDocumentTokens task.documentTokenCountsSha256 := by
      intro task htask
      obtain ⟨_, -, hb⟩ := hranges task htask
      exact hb.run
    subst hdraft
    exact plannedStatistics_accepted hcorpus hcountsNe (hlength.symm.trans hcountsLength) hbytes
      hshape haccepted.tiles hruns ⟨hpath, rfl, hcountsBytes, rfl⟩
  have hformat : ∃ input, formatDocumentInputExact profile.documentFormat "validation" =
      .ok input := by
    obtain ⟨document, documents', rfl⟩ := List.exists_cons_of_ne_nil hne
    obtain ⟨count, counts', ⟨input, _, hinput, -⟩, -, rfl⟩ := List.forall₂_cons_left_iff.mp hcounts
    obtain ⟨input', hinput'⟩ := formatDocumentInput_validation (orThrow_eq_ok.mp hinput)
    exact ⟨input', orThrow_eq_ok.mpr hinput'⟩
  obtain ⟨hcount_safe, -, -, hdataset, -⟩ := PreparedCorpusManifest.validate_eq_ok.mp hprepared
  have hvalid : (draft.withDigest prims).validate prims = .ok () := by
    refine EmbeddingPlanV2.validate_eq_ok.mpr ⟨?_, ?_, ?_, ?_, ?_, ?_, ?_, ?_, ?_,
      hmetadata, ?_, by rw [EmbeddingPlanV2.body_withDigest]; rfl⟩ <;>
      subst hdraft
    · exact hcount_safe
    · exact hsafeTokens
    · rfl
    · exact htaskTokens.ne'
    · exact htaskDocuments.ne'
    · exact hdataset
    · exact hprofile
    · exact hformat
    · exact hreference
    · simp only [EmbeddingPlanV2.withDigest, EmbeddingPlanV2.limits,
        EmbeddingPlanV2.identityContext, ← hlength, hcountsLength]
      exact haccepted
  have hbuild : buildTokenBalancedPlanWithCounts prims backend prepared documents profile reference
      tokenizerBytes options = .ok (draft.withDigest prims, counts) := by
    have hmap : documents.mapM (documentTokenCount tokenizer profile options) = .ok counts :=
      mapM_eq_ok.mpr (hcounts.imp fun _ _ h => documentTokenCount_eq_ok h)
    have hlimits : ¬ ((options.maximumTaskTokens : ℕ) = 0 ∨
        (options.maximumTaskDocuments : ℕ) = 0) := by omega
    simp only [buildTokenBalancedPlanWithCounts, bind_eq_ok, exists_unit, requireSafeU64_eq_ok,
      throwIf_eq_ok, orThrow_eq_ok, toWidth_eq_some, SafeRelativePath.new_eq_ok, pure_eq_ok,
      EmbeddingPlanV2.seal_eq_ok]
    refine ⟨hprepared, hdocuments, hprofile, hreference, hsafeTokens, hlimits, tokenizer,
      htokenizer, counts, hmap, tasks, htasks, digest, hdigest, zero, hzero, path, hpath, bytes, ?_,
      statistics, hstatistics, _, ⟨rfl, ?_⟩, ?_⟩
    · rw [hcountsBytes, length_encodeDocumentTokenCounts]
    · rw [hdraft] at hvalid
      exact hvalid
    · rw [hdraft]
  have hbinding : (draft.withDigest prims).validateManifestBinding prims prepared = .ok () := by
    simp only [EmbeddingPlanV2.validateManifestBinding, bind_eq_ok, exists_unit, throwIf_eq_ok,
      not_or, not_not]
    refine ⟨hvalid, hprepared, by subst hdraft; exact ⟨rfl, rfl, rfl, rfl⟩, ?_⟩
    have hslices : ∀ task ∈ tasks, SlicesPlaced prepared.documents task := by
      intro task htask
      obtain ⟨_, -, hb⟩ := hranges task htask
      exact ⟨hb.slices.placed, hb.slices.tiles⟩
    have htotalRows : rowTotal prepared.documents < 2 ^ 64 := by
      have hrows : rowTotal prepared.documents = counts.length := hcover.rows_sum
      unfold maxSafeJsonInteger at hcountsSafe
      omega
    have hspec := validateV2SlicesAgainstManifest_eq_ok (u := ()) hcover.paths_nodup htotalRows
      fun task htask slice hslice => ((haccepted.accepted task htask).slices slice hslice).rows_pos
    subst hdraft
    exact hspec.mpr hslices
  refine ⟨draft.withDigest prims, hbuild, hbinding, ?_, ?_⟩
  · refine bind_eq_ok.mpr ⟨(), hvalid, ?_⟩
    simp only [validateCountsAgainstPlan, bind_eq_ok, exists_unit, throwIf_eq_ok, forM_eq_ok,
      not_or, not_not]
    refine ⟨⟨?_, ?_⟩, ⟨?_, ?_⟩, digest, hdigest, ?_, statistics, hstatistics, ?_, ?_⟩ <;>
      subst hdraft
    · exact hcountsLength.symm.trans hlength
    · rintro ⟨count, hcount, hzero | hlarge⟩
      · have hpos := (hbounds count hcount).1
        rw [hzero] at hpos
        exact absurd hpos (lt_irrefl 0)
      · exact absurd (hbounds count hcount).2.1 (not_le.mpr hlarge)
    · rw [length_encodeDocumentTokenCounts]
      exact hcountsBytes.symm
    · rfl
    · rfl
    · rfl
    · intro task htask
      obtain ⟨range, hrange, hb⟩ := hranges task htask
      obtain ⟨-, hlt, hstop⟩ := htiles.bounds hrange
      exact hb.recounted hcorpus hlt hstop
  · -- the rebuild is the build
    have hsame : buildTokenBalancedPlan prims backend prepared documents
        (draft.withDigest prims).embeddingProfile (draft.withDigest prims).executableTokenizer
        tokenizerBytes ⟨(draft.withDigest prims).maximumTaskTokens,
          (draft.withDigest prims).maximumTaskDocuments⟩ = .ok (draft.withDigest prims) := by
      refine bind_eq_ok.mpr ⟨(draft.withDigest prims, counts), ?_, rfl⟩
      rw [← hbuild]
      subst hdraft
      rfl
    refine bind_eq_ok.mpr ⟨(), hbinding, bind_eq_ok.mpr ⟨_, hsame, ?_⟩⟩
    rw [throwIf_eq_ok]
    exact fun hne => hne rfl

/-- A limit that is no safe integer is refused before a token is counted. -/
theorem buildTokenBalancedPlanWithCounts_error
    (hinput : Plannable prims backend prepared documents profile reference tokenizerBytes options
      counts) {error : PipelineError}
    (hlimit : requireSafeU64 options.maximumTaskTokens = .error error) :
    buildTokenBalancedPlanWithCounts prims backend prepared documents profile reference
      tokenizerBytes options = .error error := by
  simp only [buildTokenBalancedPlanWithCounts, hinput.prepared_ok, hinput.documents_ok,
    hinput.profile_ok, hinput.reference_ok, hlimit]
  rfl

end Main

/-! ### A corpus of two documents

One document for each task. The theorem applies to the corpus under a hash that
keeps the two tasks apart; without either of its two provisos it does not. -/

/-- The sample stand-ins with a hash that keeps the sample inputs apart or lets
everything collide. The empty array has its real form, so that it can stand in a
document. -/
def pairPrimitives (collide : Bool) : Primitives where
  sha256 bytes := if collide then hexDigest 1 else hexDigest (bytes.map UInt8.toNat).sum
  canonicalJsonBytes
    | .array [] => [91, 93]
    | value => List.replicate (integerSum value) 1
  parseJson _ := .ok (.array [])

section Pair

variable (prims : Primitives)

def pairDocument (ordinal : U64) (id : String) : PreparedDocumentRow where
  documentOrdinal := ordinal
  documentId := id
  documentSha256 := hexDigest 1
  semanticTextSha256 := digestBytes prims (Text.utf8 "x")
  semanticText := "x"
  documentKind := .activity
  primaryRelation := "events"
  facetsJson := "[]"
  relationsJson := "[]"
  occurrenceCount := 1

def pairDocuments : List PreparedDocumentRow :=
  [pairDocument prims 0 "a", pairDocument prims 1 "b"]

def pairManifestDraft : PreparedCorpusManifest :=
  { sampleManifestDraft with
    documentCount := 2
    occurrenceCount := 2
    documentOrderSha256 := documentOrderDigest prims ["a", "b"]
    embeddingInputOrderSha256 := embeddingInputOrderDigest prims (pairDocuments prims)
    documents := [⟨⟨⟨"d0", isSafeRelativePath_d0⟩, 2, 100, hexDigest 2,
      canonicalDigest prims (toJson (pairDocuments prims))⟩, 0, "a", "b",
      embeddingInputOrderDigest prims (pairDocuments prims)⟩]
    occurrences := [⟨sampleObject ⟨"o0", isSafeRelativePath_o0⟩ 2, 0, "events"⟩]
    relationAccounting := SortedMap.ofList [("events", ⟨2, 2, 2, 0⟩)] }

def pairManifest : PreparedCorpusManifest :=
  { pairManifestDraft prims with
    componentSha256 := canonicalDigest prims (.mkObject (pairManifestDraft prims).body) }

def pairTokenizer : ExecutableTokenizerRef :=
  { sampleTokenizer with artifact := ⟨"artifact", "1", digestBytes prims []⟩ }

/-- One token for each text. -/
def pairBackend : TokenizerBackend := fun _ => .ok ⟨false, false, fun _ _ => .ok [7]⟩

end Pair

theorem pairManifest_validate (collide : Bool) :
    (pairManifest (pairPrimitives collide)).validate (pairPrimitives collide) = .ok () := by
  refine PreparedCorpusManifest.validate_eq_ok.mpr
    ⟨?_, ?_, rfl, ?_, ?_, ?_, ?_, ?_, ?_, ?_, ?_, ?_,
      PreparedCorpusManifest.digest_setDigest _ (pairManifestDraft (pairPrimitives collide))⟩
  all_goals
    cases collide <;> decide +kernel

/-- The builder's run on the corpus. -/
def pairBuild (collide : Bool) (options : TokenBalanceOptions) :
    Result (EmbeddingPlanV2 × List U32) :=
  buildTokenBalancedPlanWithCounts (pairPrimitives collide) pairBackend
    (pairManifest (pairPrimitives collide)) (pairDocuments (pairPrimitives collide)) sampleProfile
    (pairTokenizer (pairPrimitives collide)) [] options

/-- The corpus is meant for the builder, under all positive limits. -/
theorem pairCorpus_plannable (collide : Bool) {options : TokenBalanceOptions}
    (htokens : 0 < (options.maximumTaskTokens : ℕ))
    (hdocuments : 0 < (options.maximumTaskDocuments : ℕ)) :
    Plannable (pairPrimitives collide) pairBackend (pairManifest (pairPrimitives collide))
      (pairDocuments (pairPrimitives collide)) sampleProfile
      (pairTokenizer (pairPrimitives collide)) [] options [1, 1] := by
  have hformat : formatDocumentInputExact "{semantic_text}" "x" = .ok "x" := by decide +kernel
  have hcounted : ∀ ordinal id, CountedWithin
      ⟨pairTokenizer (pairPrimitives collide), ⟨false, false, fun _ _ => .ok [7]⟩⟩ sampleProfile
      options (pairDocument (pairPrimitives collide) ordinal id) 1 :=
    fun ordinal id => ⟨"x", 1, hformat, by decide +revert +kernel, rfl, le_rfl, by decide, htokens⟩
  have hreference : (pairTokenizer (pairPrimitives collide)).validate = .ok () := by
    cases collide <;> decide +kernel
  have htokenizer : ExactTokenizer.fromBytes (pairPrimitives collide) pairBackend
      (pairTokenizer (pairPrimitives collide)) [] =
        .ok ⟨pairTokenizer (pairPrimitives collide), ⟨false, false, fun _ _ => .ok [7]⟩⟩ :=
    bind_eq_ok.mpr ⟨(), hreference, bind_eq_ok.mpr ⟨(), throwIf_eq_ok.mpr (not_not.mpr rfl), rfl⟩⟩
  refine ⟨pairManifest_validate collide, ?_, ?_, ?_, htokens, hdocuments,
    ⟨_, htokenizer, .cons (hcounted 0 "a") (.cons (hcounted 1 "b") .nil)⟩, ?_, ?_, ?_⟩
  all_goals
    cases collide <;> decide +kernel

/-- What a task states about its range. -/
theorem buildTask_fields {prims : Primitives} {identity : TaskIdentityContext}
    {objects : List PreparedDocumentObject} {documents : List PreparedDocumentRow}
    {counts : List U32} {range : ℕ × ℕ} {task : EmbeddingTaskV2}
    (h : buildTask prims identity objects documents counts range = .ok task) :
    (task.ordinalStart : ℕ) = range.1 ∧ (task.ordinalEnd : ℕ) = range.2 ∧
      sumCounts (segment counts range.1 range.2) = .ok task.tokenCount := by
  simp only [buildTask, bind_eq_ok, orThrow_eq_ok, toWidth_eq_some, pure_eq_ok] at h
  obtain ⟨ordinalStart, hstart, ordinalEnd, hend, tokenCount, hcount, -, -, -, -, -, -, -, -, -, -,
    rfl⟩ := h
  exact ⟨hstart, hend, hcount⟩

/-- The hash of an object adds up its integers. -/
theorem canonicalDigest_mkObject (fields : List (String × Json)) :
    canonicalDigest (pairPrimitives false) (.mkObject fields) =
      hexDigest (integerSum (.mkObject fields)) := by
  simp [canonicalDigest, digestBytes, pairPrimitives, Json.mkObject]

/-- Each document has a task of its own, and the two identities have different sums. -/
theorem pairTasks_collisionFree {context : TaskIdentityContext} {tasks : List EmbeddingTaskV2}
    (h : plannedTasks (pairPrimitives false) context ⟨8, 1⟩
      (pairManifest (pairPrimitives false)).documents (pairDocuments (pairPrimitives false))
      [1, 1] = .ok tasks) :
    CollisionFree (pairPrimitives false) context tasks := by
  obtain ⟨ranges, hranges, hbuilt⟩ := bind_eq_ok.mp h
  have hcut : taskRanges ⟨8, 1⟩ [1, 1] = .ok [(0, 1), (1, 2)] := by decide
  obtain rfl := Except.ok.inj (hcut.symm.trans hranges)
  simp only [List.mapM_cons, List.mapM_nil, bind_eq_ok, pure_eq_ok] at hbuilt
  obtain ⟨first, hfirst, _, ⟨second, hsecond, _, rfl, rfl⟩, rfl⟩ := hbuilt
  obtain ⟨hstart, hend, hcount⟩ := buildTask_fields hfirst
  obtain ⟨hstart', hend', hcount'⟩ := buildTask_fields hsecond
  have hone : sumCounts [1] = .ok 1 := by decide
  have htokens : 1 = first.tokenCount := Except.ok.inj (hone.symm.trans hcount)
  have htokens' : 1 = second.tokenCount := Except.ok.inj (hone.symm.trans hcount')
  have hdigest : ∀ task : EmbeddingTaskV2,
      canonicalDigest (pairPrimitives false) (task.identity context) =
        hexDigest (task.ordinalStart + (task.ordinalEnd + task.tokenCount)) := fun task =>
    (canonicalDigest_mkObject _).trans
      (congrArg hexDigest (integerSum_embeddingTaskV2Identity context _ _ _ _ _))
  refine collisionFree_of_nodup ?_
  simp only [List.map_cons, List.map_nil, hdigest, hstart, hend, hstart', hend', ← htokens,
    ← htokens']
  decide

/-- The builder's plan of the corpus is accepted. -/
theorem pairCorpus_accepted :
    ∃ plan, pairBuild false ⟨8, 1⟩ = .ok (plan, [1, 1]) ∧
      plan.validateManifestBinding (pairPrimitives false) (pairManifest (pairPrimitives false)) =
        .ok () ∧
      plan.validateDocumentTokenCounts (pairPrimitives false) [1, 1] = .ok () ∧
      plan.validateWithTokenizer (pairPrimitives false) pairBackend
        (pairManifest (pairPrimitives false)) (pairDocuments (pairPrimitives false)) [] =
          .ok () := by
  have hlimits : 0 < ((⟨8, 1⟩ : TokenBalanceOptions).maximumTaskTokens : ℕ) := by decide
  exact buildTokenBalancedPlanWithCounts_accepted
    (pairCorpus_plannable false hlimits (by decide)) (by decide)
    fun tasks htasks => pairTasks_collisionFree htasks

/-- A task of the corpus under the hash that lets everything collide. -/
def collidingTask (start stop : U64) : EmbeddingTaskV2 where
  taskId := (hexDigest 1).val
  ordinalStart := start
  ordinalEnd := stop
  inputSlices := [⟨⟨"d0", isSafeRelativePath_d0⟩, hexDigest 2, start, 1, hexDigest 1, 1, 1,
    hexDigest 1⟩]
  embeddingInputOrderSha256 := hexDigest 1
  tokenCount := 1
  maximumDocumentTokens := 1
  documentTokenCountsSha256 := hexDigest 1
  resultPath := ⟨"parts/" ++ (hexDigest 1).val ++ ".f32",
    isSafeRelativePath_digest ['p', 'a', 'r', 't', 's'] ".f32" (by decide) (by decide)
      (by decide) _⟩
  receiptPath := ⟨"receipts/" ++ (hexDigest 1).val ++ ".json",
    isSafeRelativePath_digest ['r', 'e', 'c', 'e', 'i', 'p', 't', 's'] ".json" (by decide)
      (by decide) (by decide) _⟩

theorem plannedTasks_colliding (context : TaskIdentityContext) :
    plannedTasks (pairPrimitives true) context ⟨8, 1⟩ (pairManifest (pairPrimitives true)).documents
      (pairDocuments (pairPrimitives true)) [1, 1] =
        .ok [collidingTask 0 1, collidingTask 1 2] := by
  have hslices : buildV2Slices (pairPrimitives true) (pairManifest (pairPrimitives true)).documents
        (pairDocuments (pairPrimitives true)) [1, 1] 0 1 = .ok (collidingTask 0 1).inputSlices ∧
      buildV2Slices (pairPrimitives true) (pairManifest (pairPrimitives true)).documents
        (pairDocuments (pairPrimitives true)) [1, 1] 1 2 = .ok (collidingTask 1 2).inputSlices := by
    decide +kernel
  refine bind_eq_ok.mpr ⟨[(0, 1), (1, 2)], by decide, ?_⟩
  simp only [List.mapM_cons, List.mapM_nil, bind_eq_ok, pure_eq_ok, buildTask, orThrow_eq_ok,
    toWidth_eq_some, SafeRelativePath.new_eq_ok]
  exact ⟨_, ⟨0, rfl, 1, rfl, 1, by decide, 1, by decide, hexDigest 1, by decide,
      _, hslices.1, (collidingTask 0 1).resultPath, rfl,
      (collidingTask 0 1).receiptPath, rfl, rfl⟩, _,
    ⟨_, ⟨1, rfl, 2, rfl, 1, by decide, 1, by decide, hexDigest 1, by decide,
      _, hslices.2, (collidingTask 1 2).resultPath, rfl,
      (collidingTask 1 2).receiptPath, rfl, rfl⟩, _, rfl, rfl⟩, rfl⟩

/-- The second task is refused for the id of the first. -/
theorem pairBuild_colliding :
    pairBuild true ⟨8, 1⟩ = .error (.invalid "embedding task v2 coverage") := by
  have hplannable := @pairCorpus_plannable true ⟨8, 1⟩ (by decide) (by decide)
  obtain ⟨tokenizer, htokenizer, hcounts⟩ := hplannable.counted
  have hmap : (pairDocuments (pairPrimitives true)).mapM
      (documentTokenCount tokenizer sampleProfile ⟨8, 1⟩) = .ok [1, 1] :=
    mapM_eq_ok.mpr (hcounts.imp fun _ _ hcount => documentTokenCount_eq_ok hcount)
  have hsafe : requireSafeU64 8 = .ok () := by decide
  have hlimits : throwIf (((8 : U64) : ℕ) = 0 ∨ ((1 : U32) : ℕ) = 0)
      (PipelineError.invalid "token balance limits") = .ok () := by decide
  rw [pairBuild, buildTokenBalancedPlanWithCounts, hplannable.prepared_ok, ok_bind,
    hplannable.documents_ok, ok_bind, hplannable.profile_ok, ok_bind, hplannable.reference_ok,
    ok_bind, hsafe, ok_bind, hlimits, ok_bind, htokenizer, ok_bind, hmap, ok_bind,
    plannedTasks_colliding, ok_bind]
  -- the digest is not evaluated: it does not decide between the tasks
  simp only [EmbeddingPlanV2.seal, EmbeddingPlanV2.componentDigest_eq, ok_bind]
  decide +kernel

/-- Neither proviso can be dropped: under a hash that lets the two tasks collide
the plan is refused, and so is a limit on task tokens that is no safe integer. -/
theorem pairCorpus_refused :
    (Plannable (pairPrimitives true) pairBackend (pairManifest (pairPrimitives true))
        (pairDocuments (pairPrimitives true)) sampleProfile (pairTokenizer (pairPrimitives true)) []
        ⟨8, 1⟩ [1, 1] ∧
      pairBuild true ⟨8, 1⟩ = .error (.invalid "embedding task v2 coverage")) ∧
    (Plannable (pairPrimitives false) pairBackend (pairManifest (pairPrimitives false))
        (pairDocuments (pairPrimitives false)) sampleProfile
        (pairTokenizer (pairPrimitives false)) [] ⟨9007199254740992, 1⟩ [1, 1] ∧
      pairBuild false ⟨9007199254740992, 1⟩ = .error (.invalid "RFC 8785 safe integer")) := by
  have hplannable := @pairCorpus_plannable false ⟨9007199254740992, 1⟩ (by decide) (by decide)
  exact ⟨⟨pairCorpus_plannable true (by decide) (by decide), pairBuild_colliding⟩,
    hplannable, buildTokenBalancedPlanWithCounts_error hplannable (by decide)⟩

end LivefireRag.Pipeline
