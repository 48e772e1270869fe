import LivefireRag.Lib.Packing
import LivefireRag.Pipeline.BuilderSound

/-!
# The greedy cut is optimal

A range is closed when its next document would break one of the two limits
(`extendTask_saturated`). A part of a range within the limits is within them too, so no
other cut of the documents into ranges within the limits has fewer of them
(`task_ranges_optimal`).
-/

namespace LivefireRag.Pipeline

open Fallible Machine Tiling Packing

variable {options : TokenBalanceOptions} {counts : List U32}

/-- A cut of the documents into consecutive, non-empty ranges within both limits. -/
structure IsTaskCut (options : TokenBalanceOptions) (counts : List U32) (ranges : List (ℕ × ℕ)) :
    Prop where
  tiles : Tiles Prod.fst Prod.snd 0 ranges counts.length
  within : ∀ range ∈ ranges, WithinLimits options counts range

theorem sum_segment_mono {values : List ℕ} {a b a' b' : ℕ} (ha : a ≤ a') (hb : b' ≤ b) :
    (segment values a' b').sum ≤ (segment values a b).sum := by
  by_cases hempty : b' ≤ a'
  · rw [Tiling.segment, Nat.sub_eq_zero_of_le hempty, List.take_zero]
    exact Nat.zero_le _
  · -- the longer range is the shorter one between two others
    have hleft := segment_append (l := values) ha (show a' ≤ b by omega)
    have hright := segment_append (l := values) (show a' ≤ b' by omega) hb
    rw [← hleft, ← hright, List.sum_append, List.sum_append]
    omega

theorem partClosed_withinLimits (options : TokenBalanceOptions) (counts : List U32) :
    PartClosed fun a b => WithinLimits options counts (a, b) := by
  intro a b a' b' h ha hb
  obtain ⟨hdocuments, htokens⟩ := h
  refine ⟨?_, ?_⟩
  · show b' - a' ≤ _
    have hlength : b - a ≤ (options.maximumTaskDocuments : ℕ) := hdocuments
    omega
  · show ((segment counts a' b').map Fin.val).sum ≤ _
    rw [map_segment]
    have hsum : ((segment counts a b).map Fin.val).sum ≤ options.maximumTaskTokens := htokens
    rw [map_segment] at hsum
    exact (sum_segment_mono ha hb).trans hsum

/-- A task stops at the end of the documents, or before a document that breaks a limit. -/
theorem extendTask_saturated (rest : List U32) (documents tokens : ℕ) :
    ∃ taken, extendTask options rest documents tokens = documents + taken ∧
      (taken < rest.length → documents + taken < options.maximumTaskDocuments →
        (options.maximumTaskTokens : ℕ) <
          tokens + ((rest.take (taken + 1)).map Fin.val).sum) := by
  induction rest generalizing documents tokens with
  | nil => exact ⟨0, rfl, fun hlt => absurd hlt (Nat.not_lt_zero _)⟩
  | cons count rest ih =>
    rw [extendTask]
    split_ifs with hfits
    · obtain ⟨taken, heq, hstops⟩ := ih (documents + 1) (tokens + count)
      refine ⟨taken + 1, by rw [heq]; omega, fun hlt hdocuments => ?_⟩
      rw [List.length_cons] at hlt
      have hbreaks := hstops (by omega) (by omega)
      rw [List.take_succ_cons, List.map_cons, List.sum_cons, ← Nat.add_assoc]
      exact hbreaks
    · refine ⟨0, rfl, fun _ hdocuments => ?_⟩
      rw [List.take_succ_cons, List.take_zero, List.map_singleton, List.sum_singleton]
      by_contra hwithin
      push Not at hwithin
      -- within the limit there is no overflow either
      have hlimit := options.maximumTaskTokens.isLt
      refine hfits ⟨hdocuments, tokens + count, checkedAdd_eq_some.mpr ⟨?_, rfl⟩, hwithin⟩
      omega

/-- The ranges cannot be extended by their next document. -/
theorem taskRangesFrom_saturated {fuel start : ℕ} {ranges : List (ℕ × ℕ)}
    (h : taskRangesFrom options counts fuel start = .ok ranges) :
    Saturated Prod.fst Prod.snd (fun a b => WithinLimits options counts (a, b)) counts.length
      ranges := by
  induction fuel generalizing start ranges with
  | zero =>
    obtain rfl := pure_eq_ok.mp h
    intro range hmem
    cases hmem
  | succ fuel ih =>
    rw [taskRangesFrom] at h
    split_ifs at h with hlt
    · simp only [bind_eq_ok, exists_unit, throwIf_eq_ok, pure_eq_ok] at h
      obtain ⟨-, others, hothers, rfl⟩ := h
      obtain ⟨taken, heq, hstops⟩ := @extendTask_saturated options
        (counts.drop start) 0 0
      rw [heq, Nat.zero_add] at hothers ⊢
      intro range hmem
      rcases List.mem_cons.mp hmem with rfl | hmem
      · intro hbefore hextended
        obtain ⟨hdocuments, htokens⟩ := hextended
        have hroom : start + taken + 1 - start ≤ (options.maximumTaskDocuments : ℕ) := hdocuments
        have hrest : taken < (counts.drop start).length := by
          rw [List.length_drop]
          have hstop : start + taken < counts.length := hbefore
          omega
        have hbreaks := hstops hrest (by omega)
        have hsum : ((segment counts start (start + taken + 1)).map Fin.val).sum ≤
          options.maximumTaskTokens := htokens
        have hlength : start + taken + 1 - start = taken + 1 := by omega
        rw [Tiling.segment, hlength] at hsum
        omega
      · exact ih hothers range hmem
    · obtain rfl := pure_eq_ok.mp h
      intro range hmem
      cases hmem

/-- The tasks of a plan have the ranges of the cut. -/
theorem plannedTasks_ranges {prims : Primitives} {identity : TaskIdentityContext}
    {objects : List PreparedDocumentObject} {documents : List PreparedDocumentRow}
    {tasks : List EmbeddingTaskV2} {ranges : List (ℕ × ℕ)}
    (hranges : taskRanges options counts = .ok ranges)
    (h : plannedTasks prims identity options objects documents counts = .ok tasks) :
    tasks.map (fun task => ((task.ordinalStart : ℕ), (task.ordinalEnd : ℕ))) = ranges := by
  rw [plannedTasks, hranges, ok_bind, mapM_eq_ok] at h
  have hrange : ∀ range task, buildTask prims identity objects documents counts range = .ok task →
      range = ((task.ordinalStart : ℕ), (task.ordinalEnd : ℕ)) := by
    intro range task hbuild
    simp only [buildTask, bind_eq_ok, orThrow_eq_ok, toWidth_eq_some, pure_eq_ok] at hbuild
    obtain ⟨start, hstart, stop, hstop, _, -, _, -, _, -, _, -, _, -, _, -, rfl⟩ := hbuild
    show range = ((start : ℕ), (stop : ℕ))
    rw [hstart, hstop]
  have hsame := List.forall₂_map_right_iff.mpr (h.imp hrange)
  rw [List.forall₂_eq_eq_eq] at hsame
  exact hsame.symm

/-- **The greedy cut is optimal.** The ranges of the builder tile the documents within both
limits, none can be extended by its next document, and no other such cut has fewer. -/
theorem task_ranges_optimal (hdocuments : (options.maximumTaskDocuments : ℕ) ≠ 0)
    (hcounts : ∀ count ∈ counts, (count : ℕ) ≤ options.maximumTaskTokens) :
    ∃ ranges, taskRanges options counts = .ok ranges ∧ IsTaskCut options counts ranges ∧
      (∀ range ∈ ranges, range.2 < counts.length →
        ¬ WithinLimits options counts (range.1, range.2 + 1)) ∧
      (∀ others, IsTaskCut options counts others → ranges.length ≤ others.length) ∧
      ∀ prims identity objects documents tasks,
        plannedTasks prims identity options objects documents counts = .ok tasks →
          tasks.map (fun task => ((task.ordinalStart : ℕ), (task.ordinalEnd : ℕ))) = ranges := by
  obtain ⟨ranges, hranges, htiles, hwithin⟩ := @taskRangesFrom_tiles options counts
    hdocuments hcounts counts.length 0 (Nat.zero_le _) (Nat.sub_le _ _)
  have hsaturated := taskRangesFrom_saturated hranges
  refine ⟨ranges, hranges, ⟨htiles, hwithin⟩, hsaturated, ?_, ?_⟩
  · intro others hothers
    exact hsaturated.length_le (partClosed_withinLimits options counts) htiles hothers.tiles
      hothers.within le_rfl
  · intro prims identity objects documents tasks htasks
    exact plannedTasks_ranges hranges htasks

/-- Five documents in tasks of at most three documents and ten tokens. -/
theorem five_documents_optimal :
    taskRanges ⟨10, 3⟩ [4, 4, 4, 1, 1] = .ok [(0, 2), (2, 5)] ∧
      ∀ others, IsTaskCut ⟨10, 3⟩ [4, 4, 4, 1, 1] others → 2 ≤ others.length := by
  have hrun : taskRanges ⟨10, 3⟩ [4, 4, 4, 1, 1] = .ok [(0, 2), (2, 5)] := by rfl
  obtain ⟨ranges, hranges, -, -, hoptimal, -⟩ :=
    @task_ranges_optimal ⟨10, 3⟩ [4, 4, 4, 1, 1] (by decide) (by simp)
  obtain rfl := Except.ok.inj (hrun.symm.trans hranges)
  exact ⟨hrun, hoptimal⟩

end LivefireRag.Pipeline
