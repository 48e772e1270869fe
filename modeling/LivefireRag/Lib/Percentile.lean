import Mathlib.Algebra.Order.Floor.Div
import Mathlib.Order.Bounds.Basic
import Mathlib.Tactic.Ring
import LivefireRag.Lib.Ranking

/-!
# Nearest-rank percentiles

The value of a given rank in a list is the least one that so many elements of the list do
not exceed (`IsNearestRank`). Position `rank - 1` of the sorted list holds it
(`isNearestRank_getElem`), and the rank of a percentile can be computed from the quotient
and the remainder of the length, so that no product exceeds the length by much
(`rank_eq_ceilDiv`).
-/

namespace Percentile

variable {α : Type} [LinearOrder α]

/-- The value is in the list, and is the least that `rank` elements do not exceed. -/
def IsNearestRank (xs : List α) (rank : ℕ) (v : α) : Prop :=
  v ∈ xs ∧ IsLeast {w | rank ≤ xs.countP (· ≤ w)} v

theorem IsNearestRank.perm {xs ys : List α} (hperm : xs.Perm ys) {rank : ℕ} {v : α}
    (h : IsNearestRank xs rank v) : IsNearestRank ys rank v := by
  have hcount : ∀ w, xs.countP (· ≤ w) = ys.countP (· ≤ w) := fun w => hperm.countP_eq _
  obtain ⟨hmem, hleast⟩ := h
  simp only [hcount] at hleast
  exact ⟨hperm.mem_iff.mp hmem, hleast⟩

/-- There is one value of a rank. -/
theorem IsNearestRank.unique {xs : List α} {rank : ℕ} {v w : α} (hv : IsNearestRank xs rank v)
    (hw : IsNearestRank xs rank w) : v = w := hv.2.unique hw.2

/-- A greater rank has a greater value. -/
theorem IsNearestRank.mono {xs : List α} {r s : ℕ} {v w : α} (hrs : r ≤ s)
    (hv : IsNearestRank xs r v) (hw : IsNearestRank xs s w) : v ≤ w :=
  hv.2.2 (hrs.trans hw.2.1)

/-- The positions of a sorted list are its ranks. -/
theorem isNearestRank_getElem {xs : List α} (hsorted : xs.Pairwise (· ≤ ·)) {i : ℕ}
    (hi : i < xs.length) : IsNearestRank xs (i + 1) xs[i] := by
  refine ⟨List.getElem_mem hi, ?_, fun w hw => ?_⟩
  · -- the first `i + 1` elements do not exceed the last of them
    have hfirst : ∀ x ∈ xs.take (i + 1), x ≤ xs[i] := by
      intro x hx
      obtain ⟨j, hj, rfl⟩ := List.mem_iff_getElem.mp hx
      rw [List.length_take] at hj
      rw [List.getElem_take]
      exact hsorted.rel_get_of_le (a := ⟨j, by omega⟩) (b := ⟨i, hi⟩) (by
        show j ≤ i
        omega)
    have hall : (xs.take (i + 1)).countP (· ≤ xs[i]) = (xs.take (i + 1)).length :=
      List.countP_eq_length.mpr fun x hx => decide_eq_true (hfirst x hx)
    have hlength : (xs.take (i + 1)).length = i + 1 := by
      rw [List.length_take]
      omega
    have hle := (List.take_sublist (i + 1) xs).countP_le (p := fun x => decide (x ≤ xs[i]))
    rw [hall, hlength] at hle
    exact hle
  · -- a value that so many do not exceed is at least each of the first
    have hmem : xs[i] ∈ xs.take (i + 1) := by
      rw [List.take_succ_eq_append_getElem hi]
      exact List.mem_append_right _ (List.mem_singleton_self _)
    exact @Ranking.le_of_mem_take _ _ _ id _ _ hsorted _ hw _ hmem

/-- The rank of a percentile, computed in parts. -/
theorem rank_eq_ceilDiv (n percent : ℕ) :
    n / 100 * percent + (n % 100 * percent + 99) / 100 = (percent * n) ⌈/⌉ 100 := by
  have hsplit : percent * n = 100 * (n / 100 * percent) + n % 100 * percent := by
    calc percent * n = percent * (100 * (n / 100) + n % 100) := by rw [Nat.div_add_mod]
      _ = 100 * (n / 100 * percent) + n % 100 * percent := by ring
  rw [Nat.ceilDiv_eq_add_pred_div, hsplit]
  show _ = (100 * (n / 100 * percent) + n % 100 * percent + 99) / 100
  rw [Nat.add_assoc, Nat.mul_add_div (by decide)]

/-- The rank of a percentile from 1 to 100 of a non-empty list is one of the list. -/
theorem ceilDiv_mem_Icc {n percent : ℕ} (hn : 0 < n) (hpos : 0 < percent) (h : percent ≤ 100) :
    0 < (percent * n) ⌈/⌉ 100 ∧ (percent * n) ⌈/⌉ 100 ≤ n := by
  constructor
  · rw [Nat.pos_iff_ne_zero]
    intro hzero
    have hle : percent * n ≤ 100 * 0 := ceilDiv_le_iff_le_mul (by decide : 0 < 100) |>.mp hzero.le
    have hproduct : 0 < percent * n := Nat.mul_pos hpos hn
    omega
  · exact (ceilDiv_le_iff_le_mul (by decide : 0 < 100)).mpr (Nat.mul_le_mul_right n h)

end Percentile
