import Mathlib.Data.Finset.Card
import Mathlib.Order.Interval.Finset.Nat
import Mathlib.Order.Bounds.Basic

/-!
# Half-open intervals and their union

An interval is a pair `(start, finish)` and stands for the points `start ≤ t < finish`.
The points covered by a list of intervals form a finite set (`covered`), and the
measure of the list is the number of its points.

`sweep` computes the measure of a list sorted by its starts in one pass. Its state is
a closed measure and the open interval `[start, finish)` that later intervals may
still lengthen. What carries the pass is that all that is still to come starts no
earlier than the open interval does: an interval that starts after `finish` is then
disjoint, with everything behind it, from what is open (`total_sweep`).
-/

namespace Intervals

/-- The points of some interval of the list. -/
def covered : List (ℕ × ℕ) → Finset ℕ
  | [] => ∅
  | p :: ps => Finset.Ico p.1 p.2 ∪ covered ps

theorem mem_covered {ps : List (ℕ × ℕ)} {t : ℕ} :
    t ∈ covered ps ↔ ∃ p ∈ ps, p.1 ≤ t ∧ t < p.2 := by
  induction ps with
  | nil => simp [covered]
  | cons p ps ih => rw [covered, Finset.mem_union, Finset.mem_Ico, ih, List.exists_mem_cons_iff]

/-- The covered points depend on the intervals only as a set. -/
theorem covered_congr {ps qs : List (ℕ × ℕ)} (h : ∀ p, p ∈ ps ↔ p ∈ qs) :
    covered ps = covered qs := by
  ext t
  rw [mem_covered, mem_covered]
  exact exists_congr fun p => and_congr_left fun _ => h p

/-! ### The sweep -/

structure Sweep where
  closed : ℕ
  start : ℕ
  finish : ℕ

/-- An interval that starts within the open one lengthens it; any other closes it. -/
def Sweep.step (state : Sweep) (p : ℕ × ℕ) : Sweep :=
  if p.1 ≤ state.finish then { state with finish := max state.finish p.2 }
  else ⟨state.closed + (state.finish - state.start), p.1, p.2⟩

def Sweep.total (state : Sweep) : ℕ := state.closed + (state.finish - state.start)

/-- An interval that touches another lengthens it. -/
theorem Ico_union_of_le {s f a b : ℕ} (hs : s ≤ a) (ha : a ≤ f) :
    Finset.Ico s f ∪ Finset.Ico a b = Finset.Ico s (max f b) := by
  ext t
  simp only [Finset.mem_union, Finset.mem_Ico, lt_max_iff]
  omega

/-- What starts after an interval has ended is disjoint from it. -/
theorem disjoint_covered {s f : ℕ} {ps : List (ℕ × ℕ)} (h : ∀ p ∈ ps, f ≤ p.1) :
    Disjoint (Finset.Ico s f) (covered ps) := by
  rw [Finset.disjoint_left]
  intro t ht hcovered
  obtain ⟨p, hp, hle, -⟩ := mem_covered.mp hcovered
  have hfp := h p hp
  have htf := (Finset.mem_Ico.mp ht).2
  omega

/-- **The sweep measures the union.** Over a list sorted by its starts, none of them
before the open interval, the pass adds to the closed measure the number of points of
the open interval and of the list together. -/
theorem total_sweep {ps : List (ℕ × ℕ)} {state : Sweep}
    (hsorted : ps.Pairwise fun p q => p.1 ≤ q.1) (hstart : ∀ p ∈ ps, state.start ≤ p.1) :
    (ps.foldl Sweep.step state).total =
      state.closed + (Finset.Ico state.start state.finish ∪ covered ps).card := by
  -- the induction is on the list, the state is whatever the pass has reached
  induction ps generalizing state with
  | nil => simp [Sweep.total, covered]
  | cons p ps ih =>
    rw [List.pairwise_cons] at hsorted
    rw [List.forall_mem_cons] at hstart
    rw [List.foldl_cons]
    by_cases htouch : p.1 ≤ state.finish
    · -- the interval is merged into the open one
      have hstep : state.step p = { state with finish := max state.finish p.2 } := by
        rw [Sweep.step, if_pos htouch]
      rw [hstep, ih hsorted.2 (by exact hstart.2)]
      show state.closed + (Finset.Ico state.start (max state.finish p.2) ∪ covered ps).card = _
      rw [covered, ← Finset.union_assoc, Ico_union_of_le hstart.1 htouch]
    · -- the open interval is closed, and nothing to come meets it
      have hstep : state.step p =
          ⟨state.closed + (state.finish - state.start), p.1, p.2⟩ := by
        rw [Sweep.step, if_neg htouch]
      rw [hstep, ih hsorted.2 (by exact hsorted.1)]
      show state.closed + (state.finish - state.start) + (covered (p :: ps)).card = _
      have hdisjoint : Disjoint (Finset.Ico state.start state.finish) (covered (p :: ps)) := by
        refine disjoint_covered ?_
        intro q hq
        rcases List.mem_cons.mp hq with rfl | hq
        · omega
        · have hpq := hsorted.1 q hq
          omega
      rw [Finset.card_union_of_disjoint hdisjoint, Nat.card_Ico, Nat.add_assoc]

/-- Swept from its first interval, a sorted list gives its measure. -/
theorem total_sweep_cons {p : ℕ × ℕ} {ps : List (ℕ × ℕ)}
    (hsorted : (p :: ps).Pairwise fun p q => p.1 ≤ q.1) :
    (ps.foldl Sweep.step ⟨0, p.1, p.2⟩).total = (covered (p :: ps)).card := by
  rw [List.pairwise_cons] at hsorted
  rw [total_sweep hsorted.2 (by exact hsorted.1), Nat.zero_add, covered]

/-- The state of a sweep is ordered: what is closed lies before what is open. -/
def Sweep.Ordered (state : Sweep) : Prop :=
  state.closed ≤ state.start ∧ state.start ≤ state.finish

theorem Sweep.Ordered.step {state : Sweep} {p : ℕ × ℕ} (h : state.Ordered) (hp : p.1 ≤ p.2) :
    (state.step p).Ordered := by
  obtain ⟨hclosed, hopen⟩ := h
  unfold Sweep.step
  split
  · exact ⟨hclosed, hopen.trans (le_max_left _ _)⟩
  · next hafter =>
    refine ⟨?_, hp⟩
    show state.closed + (state.finish - state.start) ≤ p.1
    omega

theorem Sweep.step_finish_le {state : Sweep} {p : ℕ × ℕ} {bound : ℕ}
    (hstate : state.finish ≤ bound) (hp : p.2 ≤ bound) : (state.step p).finish ≤ bound := by
  unfold Sweep.step
  split
  · exact max_le hstate hp
  · exact hp

/-! ### The span -/

/-- The covered points lie between the first start and the last finish. -/
theorem covered_subset {ps : List (ℕ × ℕ)} {first last : ℕ} (hfirst : ∀ p ∈ ps, first ≤ p.1)
    (hlast : ∀ p ∈ ps, p.2 ≤ last) : covered ps ⊆ Finset.Ico first last := by
  intro t ht
  obtain ⟨p, hp, hle, hlt⟩ := mem_covered.mp ht
  exact Finset.mem_Ico.mpr ⟨(hfirst p hp).trans hle, hlt.trans_le (hlast p hp)⟩

theorem card_covered_le {ps : List (ℕ × ℕ)} {first last : ℕ} (hfirst : ∀ p ∈ ps, first ≤ p.1)
    (hlast : ∀ p ∈ ps, p.2 ≤ last) : (covered ps).card ≤ last - first := by
  have hle := Finset.card_le_card (covered_subset hfirst hlast)
  rwa [Nat.card_Ico] at hle

/-- The measure is the whole span exactly when no point of the span is left out. -/
theorem card_covered_eq_iff {ps : List (ℕ × ℕ)} {first last : ℕ} (hfirst : ∀ p ∈ ps, first ≤ p.1)
    (hlast : ∀ p ∈ ps, p.2 ≤ last) :
    (covered ps).card = last - first ↔
      ∀ t, first ≤ t → t < last → ∃ p ∈ ps, p.1 ≤ t ∧ t < p.2 := by
  have hsubset := covered_subset hfirst hlast
  constructor
  · intro hcard t hge hlt
    have hall : covered ps = Finset.Ico first last :=
      Finset.eq_of_subset_of_card_le hsubset (by rw [hcard, Nat.card_Ico])
    rw [← mem_covered, hall]
    exact Finset.mem_Ico.mpr ⟨hge, hlt⟩
  · intro hgapless
    have hall : covered ps = Finset.Ico first last := by
      refine hsubset.antisymm ?_
      intro t ht
      obtain ⟨hge, hlt⟩ := Finset.mem_Ico.mp ht
      exact mem_covered.mpr (hgapless t hge hlt)
    rw [hall, Nat.card_Ico]

end Intervals
