import Mathlib.Algebra.Order.Floor.Semiring
import Mathlib.Data.Rat.Floor
import Mathlib.Tactic.Linarith
import Mathlib.Tactic.NormNum
import Mathlib.Tactic.Ring

/-!
# Instants in seconds and nanoseconds

An instant, a rational number of seconds, is split into whole seconds, cut towards zero,
and nanoseconds, the rounded distance from them. It is shown by its seconds and the whole
milliseconds of the nanoseconds.

The nanoseconds say how far the instant is from its seconds, not on which side. So the split
is right for an instant that is not negative (`abs_shown_sub_le`), and it is right for a
negative one only while less than a millisecond is lost (`abs_shown_sub_le_iff`). From an
instant that is split well on, what is shown grows with the instant (`shown_mono`).
-/

namespace SplitTime

/-- The seconds, cut towards zero. -/
def whole (s : ℚ) : ℤ := if 0 ≤ s then ⌊s⌋ else ⌈s⌉

/-- The distance from the whole seconds. -/
def part (s : ℚ) : ℚ := |s - whole s|

/-- The distance in nanoseconds, rounded. -/
def nanos (s : ℚ) : ℕ := ⌊part s * 10 ^ 9 + 1 / 2⌋₊

/-- The instant that is shown, by its seconds and milliseconds. -/
def shown (secs : ℤ) (nanos : ℕ) : ℚ := secs + ((nanos / 10 ^ 6 : ℕ) : ℚ) / 1000

/-- The instants that are split well: none is a second or more from its whole seconds, and a
negative one has no millisecond. -/
def SplitsWell (s : ℚ) : Prop := 0 ≤ s ∨ nanos s < 10 ^ 6

/-! ### The two sides of zero -/

theorem whole_of_nonneg {s : ℚ} (h : 0 ≤ s) : whole s = ⌊s⌋ := if_pos h

theorem whole_of_neg {s : ℚ} (h : s < 0) : whole s = ⌈s⌉ := if_neg (not_le.mpr h)

theorem part_of_nonneg {s : ℚ} (h : 0 ≤ s) : part s = s - ⌊s⌋ := by
  rw [part, whole_of_nonneg h]
  exact abs_of_nonneg (sub_nonneg.mpr (Int.floor_le s))

theorem part_of_neg {s : ℚ} (h : s < 0) : part s = ⌈s⌉ - s := by
  rw [part, whole_of_neg h, abs_sub_comm]
  exact abs_of_nonneg (sub_nonneg.mpr (Int.le_ceil s))

theorem part_nonneg (s : ℚ) : 0 ≤ part s := abs_nonneg _

theorem part_lt_one (s : ℚ) : part s < 1 := by
  rcases le_or_gt 0 s with h | h
  · rw [part_of_nonneg h]
    linarith [Int.lt_floor_add_one s]
  · rw [part_of_neg h]
    linarith [Int.ceil_lt_add_one s]

/-! ### Rounding -/

theorem nanos_le (s : ℚ) : (nanos s : ℚ) ≤ part s * 10 ^ 9 + 1 / 2 :=
  Nat.floor_le (by have := part_nonneg s; positivity)

theorem lt_nanos_add_one (s : ℚ) : part s * 10 ^ 9 + 1 / 2 < nanos s + 1 :=
  Nat.lt_floor_add_one _

/-- A bound on the nanoseconds, said of the instant. -/
theorem nanos_lt_iff {s : ℚ} {n : ℕ} : nanos s < n ↔ part s < (n - 1 / 2) / 10 ^ 9 := by
  rw [nanos, Nat.floor_lt (by have := part_nonneg s; positivity), lt_div_iff₀ (by norm_num)]
  constructor <;> intro h <;> linarith

theorem nanos_le_second (s : ℚ) : nanos s ≤ 10 ^ 9 := by
  refine Nat.le_of_lt_succ (nanos_lt_iff.mpr ?_)
  have := part_lt_one s
  push_cast
  linarith

theorem nanos_mono {s t : ℚ} (h : part s ≤ part t) : nanos s ≤ nanos t :=
  Nat.floor_le_floor (by linarith)

/-- The milliseconds of a number of nanoseconds. -/
theorem millis_bounds (n : ℕ) : ((n / 10 ^ 6 : ℕ) : ℚ) * 10 ^ 6 ≤ n ∧
    (n : ℚ) + 1 ≤ (((n / 10 ^ 6 : ℕ) : ℚ) + 1) * 10 ^ 6 := by
  constructor
  · exact_mod_cast Nat.div_mul_le_self n (10 ^ 6)
  · have h : n + 1 ≤ (n / 10 ^ 6 + 1) * 10 ^ 6 := by omega
    exact_mod_cast h

theorem shown_le {secs : ℤ} {n : ℕ} (h : n ≤ 10 ^ 9) : shown secs n ≤ secs + 1 := by
  have hmillis : n / 10 ^ 6 ≤ 1000 := by omega
  have hcast : ((n / 10 ^ 6 : ℕ) : ℚ) ≤ 1000 := by exact_mod_cast hmillis
  rw [shown]
  linarith

theorem le_shown (secs : ℤ) (n : ℕ) : (secs : ℚ) ≤ shown secs n := by
  have hmillis : (0 : ℚ) ≤ ((n / 10 ^ 6 : ℕ) : ℚ) := Nat.cast_nonneg _
  rw [shown]
  linarith

theorem shown_eq_of_lt {secs : ℤ} {n : ℕ} (h : n < 10 ^ 6) : shown secs n = secs := by
  rw [shown, Nat.div_eq_of_lt h]
  norm_num

/-! ### How far off the shown instant is -/

/-- Nothing but the rest of a millisecond is lost of an instant that is not negative. -/
theorem abs_shown_sub_le {s : ℚ} (h : 0 ≤ s) : |shown (whole s) (nanos s) - s| ≤ 1 / 1000 := by
  obtain ⟨hmillis, hmillis'⟩ := millis_bounds (nanos s)
  have hle := nanos_le s
  have hlt := lt_nanos_add_one s
  have hpart := part_of_nonneg h
  rw [shown, whole_of_nonneg h, abs_le]
  constructor <;> linarith

/-- A negative instant is shown on the wrong side of its whole seconds. -/
theorem abs_shown_sub_le_iff {s : ℚ} (h : s < 0) :
    |shown (whole s) (nanos s) - s| ≤ 1 / 1000 ↔ nanos s < 10 ^ 6 := by
  have hle := nanos_le s
  have hlt := lt_nanos_add_one s
  have hpart := part_of_neg h
  constructor
  · intro hclose
    by_contra hmany
    -- a millisecond is shown, in the wrong direction
    have hmillis : 1 ≤ nanos s / 10 ^ 6 := by omega
    have hcast : (1 : ℚ) ≤ ((nanos s / 10 ^ 6 : ℕ) : ℚ) := by exact_mod_cast hmillis
    have hnanos : (10 ^ 6 : ℚ) ≤ nanos s := by exact_mod_cast not_lt.mp hmany
    have hdiff := (abs_le.mp hclose).2
    rw [shown, whole_of_neg h] at hdiff
    linarith
  · intro hfew
    have hcast : (nanos s : ℚ) + 1 ≤ 10 ^ 6 := by exact_mod_cast hfew
    rw [shown_eq_of_lt hfew, whole_of_neg h, abs_le]
    have := part_nonneg s
    constructor <;> linarith

/-! ### Order -/

theorem whole_mono {s t : ℚ} (h : s ≤ t) : whole s ≤ whole t := by
  rcases le_or_gt 0 s with hs | hs
  · rw [whole_of_nonneg hs, whole_of_nonneg (hs.trans h)]
    exact Int.floor_mono h
  · rcases le_or_gt 0 t with ht | ht
    · rw [whole_of_neg hs, whole_of_nonneg ht]
      exact (Int.ceil_nonpos.mpr hs.le).trans (Int.floor_nonneg.mpr ht)
    · rw [whole_of_neg hs, whole_of_neg ht]
      exact Int.ceil_mono h

/-- **What is shown grows with the instant**, from an instant on that is split well. -/
theorem shown_mono {s t : ℚ} (hs : SplitsWell s) (h : s ≤ t) :
    shown (whole s) (nanos s) ≤ shown (whole t) (nanos t) := by
  have hwhole : (whole s : ℚ) ≤ whole t := by exact_mod_cast whole_mono h
  rcases le_or_gt 0 s with hs0 | hs0
  · have ht0 := hs0.trans h
    rcases eq_or_lt_of_le (whole_mono h) with heq | hlt
    · -- in one second the distances are in order
      have hpart : part s ≤ part t := by
        rw [part_of_nonneg hs0, part_of_nonneg ht0]
        rw [whole_of_nonneg hs0, whole_of_nonneg ht0] at heq
        rw [heq]
        linarith
      have hmillis : ((nanos s / 10 ^ 6 : ℕ) : ℚ) ≤ ((nanos t / 10 ^ 6 : ℕ) : ℚ) := by
        exact_mod_cast Nat.div_le_div_right (nanos_mono hpart)
      rw [shown, shown]
      linarith
    · calc shown (whole s) (nanos s) ≤ whole s + 1 := shown_le (nanos_le_second s)
        _ ≤ whole t := by exact_mod_cast hlt
        _ ≤ shown (whole t) (nanos t) := le_shown _ _
  · have hfew : nanos s < 10 ^ 6 := hs.resolve_left (not_le.mpr hs0)
    rw [shown_eq_of_lt hfew]
    exact hwhole.trans (le_shown _ _)

end SplitTime
