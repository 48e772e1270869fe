import Mathlib.Algebra.GroupWithZero.Nat
import Mathlib.Data.List.Sort
import Mathlib.Data.List.Nodup
import Mathlib.Data.List.Flatten
import Mathlib.Data.List.Perm.Basic
import Mathlib.Data.List.Range
import Mathlib.Data.Prod.Lex

/-!
# Ranking by a key

A list sorted by a key, and the first `n` of it. When the keys are pairwise
distinct, the sorted list is the only sorted permutation of the list
(`eq_sortBy`), so it does not depend on the order the elements came in
(`sortBy_congr`).

Several sorted lists can be cut before they are merged: the first `n` of the
merge are found among the first `n` of each (`take_sortBy_flatMap_take`), and the
merge keeps the order of each list (`filter_sortBy`).
-/

namespace Ranking

variable {α β κ : Type} [LinearOrder κ] {key : α → κ} {xs ys : List α}

/-- The list sorted by the key, equal keys in the order they came. -/
def sortBy (key : α → κ) (xs : List α) : List α :=
  xs.mergeSort fun x y => decide (key x ≤ key y)

theorem sortBy_perm (key : α → κ) (xs : List α) : (sortBy key xs).Perm xs :=
  List.mergeSort_perm xs _

@[simp] theorem mem_sortBy {x : α} : x ∈ sortBy key xs ↔ x ∈ xs := (sortBy_perm key xs).mem_iff

@[simp] theorem length_sortBy : (sortBy key xs).length = xs.length := (sortBy_perm key xs).length_eq

theorem sortBy_pairwise (key : α → κ) (xs : List α) :
    (sortBy key xs).Pairwise (key · ≤ key ·) := by
  have hsorted := @List.pairwise_mergeSort _ (fun x y => decide (key x ≤ key y))
    (fun x y z hxy hyz => by
      simp only [decide_eq_true_eq] at hxy hyz ⊢
      exact hxy.trans hyz)
    (fun x y => by
      simp only [Bool.or_eq_true, decide_eq_true_eq]
      exact le_total _ _) xs
  exact hsorted.imp fun h => of_decide_eq_true h

/-- **Uniqueness.** With distinct keys, there is one sorted permutation. -/
theorem eq_sortBy (hperm : ys.Perm xs) (hsorted : ys.Pairwise (key · ≤ key ·))
    (hkeys : (xs.map key).Nodup) : ys = sortBy key xs := by
  refine List.Perm.eq_of_pairwise (fun x y hx hy hxy hyx => ?_) hsorted (sortBy_pairwise key xs)
    (hperm.trans (sortBy_perm key xs).symm)
  exact List.inj_on_of_nodup_map hkeys (hperm.mem_iff.mp hx) (mem_sortBy.mp hy)
    (le_antisymm hxy hyx)

theorem sortBy_congr (hperm : xs.Perm ys) (hkeys : (xs.map key).Nodup) :
    sortBy key xs = sortBy key ys :=
  eq_sortBy ((sortBy_perm key xs).trans hperm) (sortBy_pairwise key xs)
    ((hperm.map key).nodup_iff.mp hkeys)

theorem sortBy_pairwise_lt (hkeys : (xs.map key).Nodup) :
    (sortBy key xs).Pairwise (key · < key ·) := by
  have hnodup : ((sortBy key xs).map key).Nodup :=
    ((sortBy_perm key xs).map key).nodup_iff.mpr hkeys
  refine (sortBy_pairwise key xs).and (List.pairwise_map.mp hnodup) |>.imp ?_
  rintro x y ⟨hle, hne⟩
  exact lt_of_le_of_ne hle hne

/-- Sorting what a function makes of a list. -/
theorem sortBy_map (f : β → α) {xs : List β} (hkeys : (xs.map fun x => key (f x)).Nodup) :
    sortBy key (xs.map f) = (sortBy (fun x => key (f x)) xs).map f := by
  refine (eq_sortBy ((sortBy_perm _ xs).map f) ?_ ?_).symm
  · exact List.pairwise_map.mpr (sortBy_pairwise (fun x => key (f x)) xs)
  · rwa [List.map_map]

/-- Sorting what a function makes of a list that keeps the keys. -/
theorem sortBy_map_of_key {key' : β → κ} (f : β → α) (h : ∀ x, key (f x) = key' x)
    (xs : List β) : sortBy key (xs.map f) = (sortBy key' xs).map f := by
  refine (List.map_mergeSort fun x _ y _ => ?_).symm
  rw [h, h]

/-- A sorted list is left as it is. -/
theorem sortBy_of_pairwise (h : xs.Pairwise (key · ≤ key ·)) : sortBy key xs = xs :=
  List.mergeSort_of_pairwise (h.imp fun hle => decide_eq_true hle)

/-- Selecting from the merge is the merge of what is selected. -/
theorem filter_sortBy (p : α → Bool) (hkeys : (xs.map key).Nodup) :
    (sortBy key xs).filter p = sortBy key (xs.filter p) :=
  eq_sortBy ((sortBy_perm key xs).filter p) ((sortBy_pairwise key xs).filter p)
    (hkeys.sublist (List.filter_sublist.map key))

/-- The elements that precede a cut are at most those after it. -/
theorem le_of_mem_take_of_mem_drop {n : ℕ} {x y : α} (hx : x ∈ (sortBy key xs).take n)
    (hy : y ∈ (sortBy key xs).drop n) : key x ≤ key y := by
  have hsorted := sortBy_pairwise key xs
  rw [← List.take_append_drop n (sortBy key xs)] at hsorted
  exact (List.pairwise_append.mp hsorted).2.2 x hx y hy

/-- The first `n` of a sorted list are at most every element that `n` of the list
are at most. -/
theorem le_of_mem_take {n : ℕ} {zs : List α} (hsorted : zs.Pairwise (key · ≤ key ·)) {w : κ}
    (hcount : n ≤ zs.countP (key · ≤ w)) {x : α} (hx : x ∈ zs.take n) : key x ≤ w := by
  induction zs generalizing n with
  | nil => exact absurd hx (by simp)
  | cons z zs ih =>
    obtain ⟨hz, hzs⟩ := List.pairwise_cons.mp hsorted
    cases n with
    | zero => exact absurd hx (by simp)
    | succ n =>
      by_cases hzw : key z ≤ w
      · rw [List.countP_cons_of_pos (by simpa using hzw), Nat.add_le_add_iff_right] at hcount
        rcases List.mem_cons.mp (by simpa using hx) with rfl | hx
        · exact hzw
        · exact ih hzs hcount hx
      · -- then nothing of the list is at most `w`
        have hnone : (z :: zs).countP (key · ≤ w) = 0 := by
          refine List.countP_eq_zero.mpr fun y hy => ?_
          have hzy : key z ≤ key y := by
            rcases List.mem_cons.mp hy with rfl | hy
            · exact le_rfl
            · exact hz y hy
          simpa using (not_le.mp hzw).trans_le hzy
        omega

/-- Elements that `n` others precede do not enter the first `n`. -/
theorem take_sortBy_append {n : ℕ} {zs ws : List α} (hkeys : ((zs ++ ws).map key).Nodup)
    (hcount : ∀ w ∈ ws, n ≤ zs.countP (key · ≤ key w)) :
    (sortBy key (zs ++ ws)).take n = (sortBy key zs).take n := by
  have hzs := (sortBy_perm key zs)
  -- the first `n`, then everything else in order
  have hmerge : (sortBy key zs).take n ++ sortBy key ((sortBy key zs).drop n ++ ws) =
      sortBy key (zs ++ ws) := by
    refine eq_sortBy ?_ ?_ hkeys
    · have hrest := (sortBy_perm key ((sortBy key zs).drop n ++ ws)).append_left
        ((sortBy key zs).take n)
      rw [← List.append_assoc, List.take_append_drop] at hrest
      exact hrest.trans (hzs.append_right ws)
    · refine List.pairwise_append.mpr ⟨(sortBy_pairwise key zs).sublist (List.take_sublist n _),
        sortBy_pairwise key _, fun x hx y hy => ?_⟩
      rcases List.mem_append.mp (mem_sortBy.mp hy) with hy | hy
      · exact le_of_mem_take_of_mem_drop hx hy
      · refine le_of_mem_take (sortBy_pairwise key zs) ?_ hx
        rw [hzs.countP_eq]
        exact hcount y hy
  rw [← hmerge]
  cases ws with
  | nil =>
    rw [List.append_nil, sortBy_of_pairwise ((sortBy_pairwise key zs).sublist
      (List.drop_sublist n _)), List.take_append_drop]
  | cons w ws =>
    have hlength : n ≤ (sortBy key zs).length := by
      rw [length_sortBy]
      exact (hcount w List.mem_cons_self).trans List.countP_le_length
    rw [List.take_append_of_le_length (by rw [List.length_take, min_eq_left hlength]),
      List.take_take, min_self]

/-- **Cutting before merging.** The first `n` of the merge of sorted lists are the
first `n` of the merge of their first `n`. -/
theorem take_sortBy_flatMap_take {n : ℕ} {lists : List β} {ranking : β → List α}
    (hsorted : ∀ b ∈ lists, (ranking b).Pairwise (key · ≤ key ·))
    (hkeys : ((lists.flatMap ranking).map key).Nodup) :
    (sortBy key (lists.flatMap fun b => (ranking b).take n)).take n =
      (sortBy key (lists.flatMap ranking)).take n := by
  have hperm : ((lists.flatMap fun b => (ranking b).take n) ++
      lists.flatMap fun b => (ranking b).drop n).Perm (lists.flatMap ranking) := by
    refine (List.flatMap_append_perm lists _ _).trans (List.Perm.of_eq ?_)
    exact List.flatMap_congr fun b _ => List.take_append_drop n (ranking b)
  have hnodup := (hperm.map key).nodup_iff.mpr hkeys
  rw [← sortBy_congr hperm hnodup, take_sortBy_append hnodup]
  intro w hw
  obtain ⟨b, hb, hw⟩ := List.mem_flatMap.mp hw
  -- the first `n` of the list the element was cut from precede it
  have hlength : ((ranking b).take n).length = n := by
    rw [List.length_take, min_eq_left]
    exact le_of_lt (Nat.lt_of_not_le fun hle => by simp [List.drop_eq_nil_of_le hle] at hw)
  have hprefix : ∀ x ∈ (ranking b).take n, key x ≤ key w := by
    have hpairs := hsorted b hb
    rw [← List.take_append_drop n (ranking b)] at hpairs
    exact fun x hx => (List.pairwise_append.mp hpairs).2.2 x hx w hw
  calc n = ((ranking b).take n).countP (key · ≤ key w) := by
        rw [List.countP_eq_length.mpr (fun x hx => by simpa using hprefix x hx), hlength]
    _ ≤ (lists.flatMap fun b => (ranking b).take n).countP (key · ≤ key w) :=
        List.Sublist.countP_le (List.sublist_flatten_of_mem (List.mem_map_of_mem hb))

/-! ### Which of two comes first -/

/-- Of two elements of a list, one comes first. -/
theorem pair_sublist_or {x y : α} (hx : x ∈ xs) (hy : y ∈ xs) (hne : x ≠ y) :
    [x, y].Sublist xs ∨ [y, x].Sublist xs := by
  induction xs with
  | nil => cases hx
  | cons z zs ih =>
    rcases List.mem_cons.mp hx with hxz | hx
    · rcases List.mem_cons.mp hy with hyz | hy
      · exact absurd (hxz.trans hyz.symm) hne
      · rw [hxz]
        exact Or.inl ((List.singleton_sublist.mpr hy).cons_cons z)
    · rcases List.mem_cons.mp hy with hyz | hy
      · rw [hyz]
        exact Or.inr ((List.singleton_sublist.mpr hx).cons_cons z)
      · exact (ih hx hy).imp (·.cons z) (·.cons z)

/-- In a list without repetitions, only one of two comes first. -/
theorem not_pair_sublist_swap {x y : α} (hnodup : xs.Nodup) (h : [x, y].Sublist xs) :
    ¬ [y, x].Sublist xs := by
  intro hswap
  have hne : x ≠ y := by
    have hpair : [x, y].Nodup := hnodup.sublist h
    simpa using hpair
  induction xs with
  | nil => cases h
  | cons z zs ih =>
    have hzs := List.nodup_cons.mp hnodup
    cases h with
    | cons _ h =>
      cases hswap with
      | cons _ hswap => exact ih hzs.2 h hswap
      -- the second one is the head, and would come after the first
      | cons_cons _ hswap => exact hzs.1 (h.subset (by simp))
    | cons_cons _ h =>
      cases hswap with
      | cons _ hswap => exact hzs.1 (hswap.subset (by simp))
      | cons_cons _ hswap => exact hne rfl

end Ranking
