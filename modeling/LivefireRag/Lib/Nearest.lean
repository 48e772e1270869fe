import Mathlib.Data.List.Induction
import Mathlib.Order.Lattice

/-!
# The first minimiser

A scan that keeps an element and its distance, and replaces them only when it
meets a smaller distance, ends with the first of the elements at the least
distance.
-/

namespace Nearest

variable {α : Type}

/-- One step of the scan. -/
def closer (f : α → ℕ) (best : α × ℕ) (x : α) : α × ℕ :=
  if f x < best.2 then (x, f x) else best

/-- `x` is the first of the elements at the least distance. -/
def IsFirstMin (f : α → ℕ) (xs : List α) (x : α) : Prop :=
  ∃ pre post, xs = pre ++ x :: post ∧ (∀ y ∈ pre, f x < f y) ∧ ∀ y ∈ post, f x ≤ f y

/-- A scan from a distance above all others ends with the first minimiser, by
induction from the right: the last element replaces the best one or not. -/
theorem foldl_closer {f : α → ℕ} {best : α × ℕ} {xs : List α} (hne : xs ≠ [])
    (hbound : ∀ x ∈ xs, f x < best.2) :
    ∃ x, xs.foldl (closer f) best = (x, f x) ∧ IsFirstMin f xs x := by
  induction xs using List.reverseRecOn with
  | nil => exact absurd rfl hne
  | append_singleton xs y ih =>
    rw [List.foldl_append, List.foldl_cons, List.foldl_nil]
    by_cases hxs : xs = []
    · subst hxs
      have hy := hbound y (by simp)
      refine ⟨y, ?_, [], [], rfl, by simp, by simp⟩
      rw [List.foldl_nil, closer, if_pos hy]
    · obtain ⟨x, hx, pre, post, hsplit, hpre, hpost⟩ := ih hxs fun z hz =>
        hbound z (List.mem_append_left _ hz)
      rw [hx, closer]
      dsimp only
      split_ifs with hlt
      · -- the new element is nearer than all before it
        refine ⟨y, rfl, xs, [], rfl, ?_, by simp⟩
        intro z hz
        rw [hsplit, List.mem_append, List.mem_cons] at hz
        rcases hz with hz | rfl | hz
        · exact hlt.trans (hpre z hz)
        · exact hlt
        · exact hlt.trans_le (hpost z hz)
      · refine ⟨x, rfl, pre, post ++ [y], by rw [hsplit]; simp, hpre, ?_⟩
        intro z hz
        rcases List.mem_append.mp hz with hz | hz
        · exact hpost z hz
        · obtain rfl := List.mem_singleton.mp hz
          exact Nat.le_of_not_lt hlt

theorem IsFirstMin.mem {f : α → ℕ} {xs : List α} {x : α} (h : IsFirstMin f xs x) : x ∈ xs := by
  obtain ⟨pre, post, rfl, -, -⟩ := h
  simp

theorem IsFirstMin.le {f : α → ℕ} {xs : List α} {x y : α} (h : IsFirstMin f xs x)
    (hy : y ∈ xs) : f x ≤ f y := by
  obtain ⟨pre, post, rfl, hpre, hpost⟩ := h
  rcases List.mem_append.mp hy with hy | hy
  · exact (hpre y hy).le
  · rcases List.mem_cons.mp hy with rfl | hy
    · exact le_rfl
    · exact hpost y hy

/-- In an increasing list the first minimiser is the least one. -/
theorem IsFirstMin.lt_of_lt [LinearOrder α] {f : α → ℕ} {xs : List α} {x y : α}
    (h : IsFirstMin f xs x) (hsorted : xs.Pairwise (· < ·)) (hy : y ∈ xs) (hlt : y < x) :
    f x < f y := by
  obtain ⟨pre, post, rfl, hpre, -⟩ := h
  rcases List.mem_append.mp hy with hy | hy
  · exact hpre y hy
  · -- nothing from `x` on is below it
    have hpost := (List.pairwise_append.mp hsorted).2.1
    rw [List.pairwise_cons] at hpost
    rcases List.mem_cons.mp hy with rfl | hy
    · exact absurd hlt (lt_irrefl _)
    · exact absurd (hpost.1 y hy) (lt_asymm hlt)

end Nearest
