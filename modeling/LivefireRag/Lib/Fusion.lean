import Mathlib.Algebra.Order.Field.Rat
import Mathlib.Data.List.Nodup
import Mathlib.Order.Monotone.Defs

/-!
# Fusing rankings by their places

A ranking credits each of its items with a weight that depends on the item's place alone
and falls from place to place (`credit`). Two rankings are fused by adding the credits: an
item that one ranking puts before another, and the other ranking does not put after it, has
the larger sum (`credit_add_lt`). In a list sorted by the sums it therefore comes first
(`precedes_of_sorted`).
-/

namespace Fusion

variable {κ : Type} {a b : κ}

/-- `a` stands before `b`. -/
def Precedes (ids : List κ) (a b : κ) : Prop :=
  ∃ i j : ℕ, i < j ∧ ids[i]? = some a ∧ ids[j]? = some b

theorem Precedes.mem_left {ids : List κ} (h : Precedes ids a b) : a ∈ ids := by
  obtain ⟨i, j, -, ha, -⟩ := h
  exact List.mem_of_getElem? ha

theorem Precedes.mem_right {ids : List κ} (h : Precedes ids a b) :
    b ∈ ids := by
  obtain ⟨i, j, -, -, hb⟩ := h
  exact List.mem_of_getElem? hb

/-- In a list with falling scores, the item with the larger score comes first. -/
theorem precedes_of_sorted {scores : List (κ × ℚ)} {s t : ℚ}
    (hsorted : scores.Pairwise fun x y => y.2 ≤ x.2) (ha : (a, s) ∈ scores)
    (hb : (b, t) ∈ scores) (hlt : t < s) : Precedes (scores.map Prod.fst) a b := by
  obtain ⟨i, hi, hgeti⟩ := List.mem_iff_getElem.mp ha
  obtain ⟨j, hj, hgetj⟩ := List.mem_iff_getElem.mp hb
  refine ⟨i, j, ?_, ?_, ?_⟩
  · by_contra hle
    rcases (not_lt.mp hle).lt_or_eq with hji | rfl
    · have hfalls := List.pairwise_iff_getElem.mp hsorted j i hj hi hji
      rw [hgeti, hgetj] at hfalls
      exact absurd hlt (not_lt.mpr hfalls)
    · rw [hgeti] at hgetj
      exact absurd hlt (by rw [(Prod.mk.inj hgetj).2]; exact lt_irrefl _)
  · rw [List.getElem?_map, List.getElem?_eq_getElem hi, hgeti]
    rfl
  · rw [List.getElem?_map, List.getElem?_eq_getElem hj, hgetj]
    rfl

variable [DecidableEq κ]

/-- The weight of the place of an item, or 0 when the ranking does not have it. -/
def credit (weight : ℕ → ℚ) (ids : List κ) (a : κ) : ℚ := ((ids.idxOf? a).map weight).getD 0

variable {weight : ℕ → ℚ} {ids ids' : List κ}

theorem idxOf?_of_getElem? (hnodup : ids.Nodup) {i : ℕ} (h : ids[i]? = some a) :
    ids.idxOf? a = some i := by
  obtain ⟨hlt, hget⟩ := List.getElem?_eq_some_iff.mp h
  rw [List.idxOf?_eq_some_iff]
  refine ⟨hlt, hget, fun j hj hsame => ?_⟩
  -- the item has one place
  have hplace := (List.Nodup.getElem_inj_iff hnodup).mp (hsame.trans hget.symm)
  omega

theorem credit_of_getElem? (hnodup : ids.Nodup) {i : ℕ} (h : ids[i]? = some a) :
    credit weight ids a = weight i := by
  rw [credit, idxOf?_of_getElem? hnodup h]
  rfl

theorem credit_of_notMem (h : a ∉ ids) : credit weight ids a = 0 := by
  rw [credit, List.idxOf?_eq_none_iff.mpr h]
  rfl

theorem credit_nonneg (hpos : ∀ i, 0 < weight i) (ids : List κ) (a : κ) :
    0 ≤ credit weight ids a := by
  unfold credit
  cases ids.idxOf? a with
  | none => exact le_rfl
  | some i => exact (hpos i).le

theorem credit_lt_of_precedes (hanti : StrictAnti weight) (hnodup : ids.Nodup)
    (h : Precedes ids a b) : credit weight ids b < credit weight ids a := by
  obtain ⟨i, j, hij, ha, hb⟩ := h
  rw [credit_of_getElem? hnodup ha, credit_of_getElem? hnodup hb]
  exact hanti hij

/-- **Fusing is Pareto-consistent.** -/
theorem credit_add_lt (hpos : ∀ i, 0 < weight i) (hanti : StrictAnti weight)
    (hnodup : ids.Nodup) (hnodup' : ids'.Nodup) (h : Precedes ids a b)
    (h' : Precedes ids' a b ∨ b ∉ ids') :
    credit weight ids b + credit weight ids' b < credit weight ids a + credit weight ids' a := by
  refine add_lt_add_of_lt_of_le (credit_lt_of_precedes hanti hnodup h) ?_
  rcases h' with h' | hnot
  · exact (credit_lt_of_precedes hanti hnodup' h').le
  · rw [credit_of_notMem hnot]
    exact credit_nonneg hpos ids' a

end Fusion
