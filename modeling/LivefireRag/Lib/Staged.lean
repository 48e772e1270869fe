import Mathlib.Algebra.BigOperators.Group.List.Basic
import LivefireRag.Lib.Ranking
import LivefireRag.Lib.Tiling

/-!
# Staged selection

Elements lie in groups, each in the order of a key. A stage takes from every group
the elements between two counts and puts them in order of the key (`stage`); a
selection is a sequence of stages whose counts grow (`stages`).

A selection holds of every group its first elements, as many as the last count says
(`filter_flatten_stages`), and has as many elements as the counts add up to
(`length_flatten_stages`).
-/

namespace Ranking

open Tiling

variable {α γ κ : Type} [LinearOrder κ] [DecidableEq γ]

/-- From every group the elements between the two counts, in order of the key. -/
def stage (key : α → κ) (group : γ → List α) (cells : List γ) (start stop : γ → ℕ) : List α :=
  sortBy key (cells.flatMap fun cell => segment (group cell) (start cell) (stop cell))

/-- One stage after the other, each up to the next counts. -/
def stages (key : α → κ) (group : γ → List α) (cells : List γ) :
    (γ → ℕ) → List (γ → ℕ) → List (List α)
  | _, [] => []
  | start, stop :: stops => stage key group cells start stop :: stages key group cells stop stops

/-- Groups of elements: a group holds elements of its own cell, by ascending key. -/
structure Grouped (key : α → κ) (cellOf : α → γ) (group : γ → List α) : Prop where
  cell : ∀ cell, ∀ x ∈ group cell, cellOf x = cell
  sorted : ∀ cell, (group cell).Pairwise (key · < key ·)

variable {key : α → κ} {cellOf : α → γ} {group : γ → List α} {cells : List γ}

/-- Of lists with one list for each cell, a cell selects its own. -/
theorem filter_flatMap_cells {f : γ → List α} (hcells : cells.Nodup)
    (hf : ∀ cell, ∀ x ∈ f cell, cellOf x = cell) {cell : γ} (hcell : cell ∈ cells) :
    (cells.flatMap f).filter (fun x => cellOf x = cell) = f cell := by
  induction cells with
  | nil => cases hcell
  | cons c cells ih =>
    obtain ⟨hc, hcells⟩ := List.nodup_cons.mp hcells
    rw [List.flatMap_cons, List.filter_append]
    by_cases heq : cell = c
    · -- its own list stays whole, and the others lose everything
      subst heq
      have hrest : (cells.flatMap f).filter (fun x => cellOf x = cell) = [] := by
        refine List.filter_eq_nil_iff.mpr fun x hx => ?_
        obtain ⟨c', hc', hx⟩ := List.mem_flatMap.mp hx
        rw [hf c' x hx, decide_eq_true_eq]
        rintro rfl
        exact hc hc'
      rw [hrest, List.append_nil,
        List.filter_eq_self.mpr fun x hx => by rw [hf cell x hx, decide_eq_true_eq]]
    · have hfirst : (f c).filter (fun x => cellOf x = cell) = [] := by
        refine List.filter_eq_nil_iff.mpr fun x hx => ?_
        rw [hf c x hx, decide_eq_true_eq]
        exact fun h => heq h.symm
      rw [hfirst, List.nil_append]
      exact ih hcells ((List.mem_cons.mp hcell).resolve_left heq)

/-- A stage adds to a group the elements between its two counts. -/
theorem filter_stage (hgroup : Grouped key cellOf group) (hcells : cells.Nodup)
    {start stop : γ → ℕ} {cell : γ} (hcell : cell ∈ cells) :
    (stage key group cells start stop).filter (fun x => cellOf x = cell) =
      segment (group cell) (start cell) (stop cell) := by
  have hperm := (sortBy_perm key
    (cells.flatMap fun cell => segment (group cell) (start cell) (stop cell))).filter
      (fun x => cellOf x = cell)
  rw [filter_flatMap_cells hcells (fun c x hx => hgroup.cell c x (mem_of_mem_segment hx)) hcell]
    at hperm
  have hsegment := (hgroup.sorted cell).sublist (segment_sublist (group cell) (start cell)
    (stop cell))
  -- both are sorted, and within the group the key tells elements apart
  have hinj : ∀ x ∈ segment (group cell) (start cell) (stop cell),
      ∀ y ∈ segment (group cell) (start cell) (stop cell), key x = key y → x = y :=
    fun x hx y hy => List.inj_on_of_nodup_map
      (List.pairwise_map.mpr (hsegment.imp fun h => h.ne)) hx hy
  refine List.Perm.eq_of_pairwise (fun x y hx hy hxy hyx => ?_)
    ((sortBy_pairwise key _).filter _) (hsegment.imp fun h => le_of_lt h) hperm
  exact hinj x (hperm.mem_iff.mp hx) y hy (le_antisymm hxy hyx)

omit [DecidableEq γ] in
/-- A stage has as many elements as the counts grow by. -/
theorem length_stage {start stop : γ → ℕ} (hfit : ∀ cell ∈ cells, stop cell ≤ (group cell).length) :
    (stage key group cells start stop).length =
      (cells.map fun cell => stop cell - start cell).sum := by
  rw [stage, length_sortBy, List.length_flatMap]
  exact congrArg List.sum (List.map_congr_left fun cell hcell => length_segment (hfit cell hcell))

omit [DecidableEq γ] in
/-- The counts at the end of a selection. -/
theorem getLast?_getD_cons (start stop : γ → ℕ) (stops : List (γ → ℕ)) :
    (stop :: stops).getLast?.getD start = stops.getLast?.getD stop := by
  rw [List.getLast?_cons, Option.getD_some]

/-- Counts that grow in every cell. -/
def Growing (cells : List γ) (counts : List (γ → ℕ)) : Prop :=
  counts.Pairwise fun q q' => ∀ cell ∈ cells, q cell ≤ q' cell

omit [DecidableEq γ] in
theorem Growing.le_last {start : γ → ℕ} {stops : List (γ → ℕ)}
    (h : Growing cells (start :: stops)) {cell : γ} (hcell : cell ∈ cells) :
    start cell ≤ stops.getLast?.getD start cell := by
  obtain ⟨hle, -⟩ := List.pairwise_cons.mp h
  cases hlast : stops.getLast? with
  | none => exact le_rfl
  | some stop => exact hle stop (List.mem_of_getLast? hlast) cell hcell

omit [DecidableEq γ] in
theorem Growing.upTo {start stop : γ → ℕ} {stops rest : List (γ → ℕ)}
    (h : Growing cells (start :: (stops ++ stop :: rest))) :
    Growing cells (start :: (stops ++ [stop])) :=
  h.sublist (List.Sublist.cons_cons _
    ((List.singleton_sublist.mpr List.mem_cons_self).append_left _))

omit [DecidableEq γ] in
/-- Counts in the middle are at least the last ones before them. -/
theorem Growing.last_le {start stop : γ → ℕ} {stops rest : List (γ → ℕ)}
    (h : Growing cells (start :: (stops ++ stop :: rest))) {cell : γ} (hcell : cell ∈ cells) :
    stops.getLast?.getD start cell ≤ stop cell := by
  rw [← List.cons_append] at h
  obtain ⟨hbefore, -, hle⟩ := List.pairwise_append.mp h
  cases hlast : stops.getLast? with
  | none => exact hle start List.mem_cons_self stop List.mem_cons_self cell hcell
  | some q =>
    exact hle q (List.mem_cons_of_mem _ (List.mem_of_getLast? hlast)) stop List.mem_cons_self cell
      hcell

omit [DecidableEq γ] in
theorem Growing.concat {start stop : γ → ℕ} {stops : List (γ → ℕ)}
    (h : Growing cells (start :: stops))
    (hstop : ∀ cell ∈ cells, stops.getLast?.getD start cell ≤ stop cell) :
    Growing cells (start :: (stops ++ [stop])) := by
  induction stops generalizing start with
  | nil => exact List.pairwise_pair.mpr hstop
  | cons q stops ih =>
    obtain ⟨hle, hrest⟩ := List.pairwise_cons.mp h
    refine List.pairwise_cons.mpr ⟨fun q' hq' cell hcell => ?_, ih hrest fun cell hcell => ?_⟩
    · rcases List.mem_append.mp hq' with hq' | hq'
      · exact hle q' hq' cell hcell
      · obtain rfl := List.mem_singleton.mp hq'
        exact (Growing.le_last h hcell).trans (hstop cell hcell)
    · rw [← getLast?_getD_cons start]
      exact hstop cell hcell

/-- **A selection holds the first elements of every group.** -/
theorem filter_flatten_stages (hgroup : Grouped key cellOf group) (hcells : cells.Nodup)
    {start : γ → ℕ} {stops : List (γ → ℕ)} (hgrow : Growing cells (start :: stops)) {cell : γ}
    (hcell : cell ∈ cells) :
    (stages key group cells start stops).flatten.filter (fun x => cellOf x = cell) =
      segment (group cell) (start cell) (stops.getLast?.getD start cell) := by
  induction stops generalizing start with
  | nil =>
    rw [stages, List.flatten_nil, List.filter_nil]
    exact (segment_self _ _).symm
  | cons stop stops ih =>
    obtain ⟨hle, hrest⟩ := List.pairwise_cons.mp hgrow
    rw [stages, List.flatten_cons, List.filter_append, filter_stage hgroup hcells hcell, ih hrest,
      getLast?_getD_cons]
    exact segment_append (hle stop List.mem_cons_self cell hcell) (Growing.le_last hrest hcell)

omit [DecidableEq γ] in
/-- **A selection has as many elements as the counts grow by in all.** -/
theorem length_flatten_stages {start : γ → ℕ} {stops : List (γ → ℕ)}
    (hgrow : Growing cells (start :: stops))
    (hfit : ∀ stop ∈ stops, ∀ cell ∈ cells, stop cell ≤ (group cell).length) :
    (stages key group cells start stops).flatten.length =
      (cells.map fun cell => stops.getLast?.getD start cell - start cell).sum := by
  induction stops generalizing start with
  | nil =>
    rw [stages, List.flatten_nil, List.length_nil, List.sum_eq_zero]
    intro n hn
    obtain ⟨cell, -, rfl⟩ := List.mem_map.mp hn
    exact Nat.sub_self _
  | cons stop stops ih =>
    obtain ⟨hle, hrest⟩ := List.pairwise_cons.mp hgrow
    rw [List.forall_mem_cons] at hfit
    rw [stages, List.flatten_cons, List.length_append, length_stage hfit.1, ih hrest hfit.2,
      getLast?_getD_cons, ← List.sum_map_add]
    refine congrArg List.sum (List.map_congr_left fun cell hcell => ?_)
    have hfirst := hle stop List.mem_cons_self cell hcell
    have hlast := Growing.le_last hrest hcell
    omega

omit [DecidableEq γ] in
/-- The last stage goes on from the counts before it. -/
theorem stages_concat (start stop : γ → ℕ) (stops : List (γ → ℕ)) :
    stages key group cells start (stops ++ [stop]) =
      stages key group cells start stops ++
        [stage key group cells (stops.getLast?.getD start) stop] := by
  induction stops generalizing start with
  | nil => rfl
  | cons q stops ih =>
    rw [List.cons_append, stages, ih, stages, getLast?_getD_cons]
    rfl

omit [DecidableEq γ] in
/-- The first stages of a selection are the selection up to their counts. -/
theorem stages_take (start : γ → ℕ) (stops : List (γ → ℕ)) (n : ℕ) :
    (stages key group cells start stops).take n =
      stages key group cells start (stops.take n) := by
  induction stops generalizing start n with
  | nil => rw [stages, List.take_nil, List.take_nil, stages]
  | cons stop stops ih =>
    cases n with
    | zero => rfl
    | succ n => rw [stages, List.take_succ_cons, List.take_succ_cons, stages, ih]

omit [DecidableEq γ] in
/-- A selection has the first elements of every group, in another order. -/
theorem flatten_stages_perm {start : γ → ℕ} {stops : List (γ → ℕ)}
    (hgrow : Growing cells (start :: stops)) :
    (stages key group cells start stops).flatten.Perm
      (cells.flatMap fun cell => segment (group cell) (start cell)
        (stops.getLast?.getD start cell)) := by
  induction stops generalizing start with
  | nil =>
    have hnone : (cells.flatMap fun cell => segment (group cell) (start cell)
        (([] : List (γ → ℕ)).getLast?.getD start cell)) = [] :=
      List.flatMap_eq_nil_iff.mpr fun cell _ => segment_self _ _
    rw [hnone]
    exact List.Perm.refl _
  | cons stop stops ih =>
    obtain ⟨hle, hrest⟩ := List.pairwise_cons.mp hgrow
    rw [stages, List.flatten_cons, getLast?_getD_cons]
    refine ((sortBy_perm key _).append (ih hrest)).trans ?_
    refine (List.flatMap_append_perm cells _ _).trans (List.Perm.of_eq ?_)
    exact List.flatMap_congr fun cell hcell =>
      segment_append (hle stop List.mem_cons_self cell hcell) (Growing.le_last hrest hcell)

omit [DecidableEq γ] in
theorem mem_flatten_stages {start : γ → ℕ} {stops : List (γ → ℕ)} {x : α}
    (hgrow : Growing cells (start :: stops))
    (hx : x ∈ (stages key group cells start stops).flatten) :
    ∃ cell ∈ cells, x ∈ group cell := by
  obtain ⟨cell, hcell, hx⟩ := List.mem_flatMap.mp ((flatten_stages_perm hgrow).mem_iff.mp hx)
  exact ⟨cell, hcell, mem_of_mem_segment hx⟩

omit [DecidableEq γ] in
/-- What tells the elements of all groups apart tells those of a selection apart. -/
theorem nodup_map_flatten_stages {β : Type} {f : α → β} (hgroup : Grouped key cellOf group)
    (hcells : cells.Nodup) {start : γ → ℕ} {stops : List (γ → ℕ)}
    (hgrow : Growing cells (start :: stops))
    (hf : ∀ c c', ∀ x ∈ group c, ∀ y ∈ group c', f x = f y → x = y) :
    ((stages key group cells start stops).flatten.map f).Nodup := by
  refine List.Nodup.map_on (fun x hx y hy => ?_) ?_
  · obtain ⟨c, -, hx⟩ := mem_flatten_stages hgrow hx
    obtain ⟨c', -, hy⟩ := mem_flatten_stages hgrow hy
    exact hf c c' x hx y hy
  · refine (flatten_stages_perm hgrow).nodup_iff.mpr (List.nodup_flatMap.mpr ⟨?_, ?_⟩)
    · intro cell _
      exact ((hgroup.sorted cell).sublist (segment_sublist _ _ _)).imp fun hlt heq =>
        hlt.ne (congrArg key heq)
    · -- elements of different cells differ
      refine hcells.imp fun {c c'} hne x hx hx' => hne ?_
      rw [← hgroup.cell c x (mem_of_mem_segment hx), hgroup.cell c' x (mem_of_mem_segment hx')]

omit [DecidableEq γ] in
/-- A stage of a selection whose keys differ ascends. -/
theorem stages_pairwise {start : γ → ℕ} {stops : List (γ → ℕ)}
    (hkeys : ((stages key group cells start stops).flatten.map key).Nodup) :
    ∀ xs ∈ stages key group cells start stops, xs.Pairwise (key · < key ·) := by
  induction stops generalizing start with
  | nil =>
    intro xs hxs
    cases hxs
  | cons stop stops ih =>
    rw [stages, List.flatten_cons, List.map_append] at hkeys
    intro xs hxs
    rcases List.mem_cons.mp hxs with rfl | hxs
    · refine sortBy_pairwise_lt (((sortBy_perm key _).map key).nodup_iff.mp ?_)
      exact (List.nodup_append.mp hkeys).1
    · exact ih (List.nodup_append.mp hkeys).2.1 xs hxs

end Ranking
