import Mathlib.Algebra.BigOperators.Group.Finset.Basic
import Mathlib.Algebra.Order.BigOperators.Group.List
import Mathlib.Algebra.Order.Field.Basic
import Mathlib.Data.List.GetD
import Mathlib.Data.List.Perm.Subperm
import Mathlib.Tactic.Linarith
import Mathlib.Tactic.Ring

/-!
# Discounted sums

A list of gains is weighed by discounts that fall with the position. A gain of nothing put
between the others raises the sum no more than it lowers them (`weigh_insert_le`), two
neighbours are best placed with the larger one first (`weigh_swap_le`), and among the lists
that take their positive gains from a given stock the falling arrangement of the stock is
the best one (`weigh_le_of_subperm`), and it alone (`weigh_eq_iff_of_subperm`).
-/

namespace Discount

variable {𝕜 : Type} [Field 𝕜] [LinearOrder 𝕜] [IsStrictOrderedRing 𝕜]
variable {d d' : ℕ → 𝕜} {xs ys zs : List 𝕜}

/-- The gains, each times the discount of its position. -/
def weigh (d : ℕ → 𝕜) : List 𝕜 → 𝕜
  | [] => 0
  | x :: xs => x * d 0 + weigh (fun i => d (i + 1)) xs

/-- No discounts from position `k` on. -/
def cut (k : ℕ) (d : ℕ → 𝕜) (i : ℕ) : 𝕜 := if i < k then d i else 0

omit [LinearOrder 𝕜] [IsStrictOrderedRing 𝕜] in
theorem weigh_append (d : ℕ → 𝕜) (xs ys : List 𝕜) :
    weigh d (xs ++ ys) = weigh d xs + weigh (fun i => d (i + xs.length)) ys := by
  induction xs generalizing d with
  | nil => rw [List.nil_append, weigh, zero_add]; rfl
  | cons x xs ih =>
    rw [List.cons_append, weigh, ih, weigh, add_assoc, List.length_cons]
    congr 3

omit [LinearOrder 𝕜] [IsStrictOrderedRing 𝕜] in
theorem weigh_zero (xs : List 𝕜) : weigh (fun _ => 0) xs = 0 := by
  induction xs with
  | nil => rfl
  | cons x xs ih => rw [weigh, ih, mul_zero, add_zero]

omit [LinearOrder 𝕜] [IsStrictOrderedRing 𝕜] in
/-- Cutting the list is cutting the discounts. -/
theorem weigh_take (k : ℕ) (d : ℕ → 𝕜) (xs : List 𝕜) :
    weigh d (xs.take k) = weigh (cut k d) xs := by
  induction xs generalizing k d with
  | nil => rw [List.take_nil]; rfl
  | cons x xs ih =>
    cases k with
    | zero =>
      have hcut : cut 0 d = fun _ => 0 := funext fun i => if_neg (Nat.not_lt_zero i)
      rw [hcut, weigh_zero]
      rfl
    | succ k =>
      have hcut : (fun i => cut (k + 1) d (i + 1)) = cut k fun i => d (i + 1) := by
        funext i
        simp only [cut, Nat.add_lt_add_iff_right]
      rw [List.take_succ_cons, weigh, weigh, ih, hcut]
      rfl

omit [IsStrictOrderedRing 𝕜] in
theorem cut_nonneg (hd : ∀ i, 0 ≤ d i) (k i : ℕ) : 0 ≤ cut k d i := by
  unfold cut
  split
  · exact hd i
  · exact le_rfl

omit [IsStrictOrderedRing 𝕜] in
theorem cut_antitone (hd : ∀ i, 0 ≤ d i) (hanti : Antitone d) (k : ℕ) : Antitone (cut k d) := by
  intro i j hij
  unfold cut
  by_cases hj : j < k
  · rw [if_pos hj, if_pos (hij.trans_lt hj)]
    exact hanti hij
  · rw [if_neg hj]
    exact cut_nonneg hd k i

theorem weigh_nonneg (hd : ∀ i, 0 ≤ d i) (hxs : ∀ x ∈ xs, 0 ≤ x) : 0 ≤ weigh d xs := by
  induction xs generalizing d with
  | nil => exact le_rfl
  | cons x xs ih =>
    have hx := mul_nonneg (hxs x List.mem_cons_self) (hd 0)
    exact add_nonneg hx (ih (fun i => hd (i + 1)) fun y hy => hxs y (List.mem_cons_of_mem x hy))

/-- Lower discounts give a lower sum. -/
theorem weigh_mono (hle : ∀ i, d' i ≤ d i) (hxs : ∀ x ∈ xs, 0 ≤ x) : weigh d' xs ≤ weigh d xs := by
  induction xs generalizing d d' with
  | nil => exact le_rfl
  | cons x xs ih =>
    have hx := mul_le_mul_of_nonneg_left (hle 0) (hxs x List.mem_cons_self)
    exact add_le_add hx
      (ih (fun i => hle (i + 1)) fun y hy => hxs y (List.mem_cons_of_mem x hy))

/-- **A position without gain only moves the others down.** -/
theorem weigh_insert_le (hanti : Antitone d) (hys : ∀ y ∈ ys, 0 ≤ y) :
    weigh d (xs ++ 0 :: ys) ≤ weigh d (xs ++ ys) := by
  rw [weigh_append, weigh_append, weigh, zero_mul, zero_add]
  have hle : ∀ i, d (i + 1 + xs.length) ≤ d (i + xs.length) := fun i => hanti (by omega)
  exact add_le_add_right (weigh_mono hle hys) (weigh d xs)

/-- **Of two neighbours the larger one belongs first.** -/
theorem weigh_swap_le (hanti : Antitone d) {a b : 𝕜} (hab : a ≤ b) :
    weigh d (xs ++ a :: b :: ys) ≤ weigh d (xs ++ b :: a :: ys) := by
  rw [weigh_append, weigh_append]
  simp only [weigh]
  have hd : d (0 + 1 + xs.length) ≤ d (0 + xs.length) := hanti (by omega)
  have hswap : a * d (0 + xs.length) + b * d (0 + 1 + xs.length) ≤
      b * d (0 + xs.length) + a * d (0 + 1 + xs.length) := by
    nlinarith [mul_nonneg (sub_nonneg.mpr hab) (sub_nonneg.mpr hd)]
  linarith

/-! ### The best arrangement -/

omit [LinearOrder 𝕜] [IsStrictOrderedRing 𝕜] in
theorem weigh_eq_sum {k : ℕ} (h : xs.length ≤ k) :
    weigh d xs = ∑ i ∈ Finset.range k, xs.getD i 0 * d i := by
  induction xs generalizing d k with
  | nil =>
    rw [weigh, Finset.sum_eq_zero]
    intro i _
    rw [List.getD_nil, zero_mul]
  | cons x xs ih =>
    obtain ⟨k, rfl⟩ : ∃ n, k = n + 1 := ⟨k - 1, by rw [List.length_cons] at h; omega⟩
    rw [weigh, ih (Nat.le_of_succ_le_succ h), Finset.sum_range_succ', add_comm]
    rfl

omit [LinearOrder 𝕜] [IsStrictOrderedRing 𝕜] in
theorem sum_take_eq_sum (n : ℕ) (xs : List 𝕜) :
    (xs.take n).sum = ∑ i ∈ Finset.range n, xs.getD i 0 := by
  induction n with
  | zero => rfl
  | succ n ih =>
    rw [Finset.sum_range_succ, ← ih]
    by_cases hn : n < xs.length
    · rw [List.take_succ_eq_append_getElem hn, List.sum_append, List.sum_singleton,
        List.getD_eq_getElem _ _ hn]
    · rw [List.take_of_length_le (by omega), List.take_of_length_le (by omega),
        List.getD_eq_default _ _ (by omega), add_zero]

/-- Where no prefix has a negative sum, the discounted sum is at least the last discount of
the whole sum: one position after the other, `S` being the sum so far and `T` the
discounted one, `T ≥ d S` is kept as the discount falls. -/
theorem mul_sum_le_sum_mul (hanti : Antitone d) {f : ℕ → 𝕜} {k : ℕ}
    (h : ∀ n ≤ k + 1, 0 ≤ ∑ i ∈ Finset.range n, f i) :
    d k * ∑ i ∈ Finset.range (k + 1), f i ≤ ∑ i ∈ Finset.range (k + 1), f i * d i := by
  induction k with
  | zero => simp [mul_comm]
  | succ k ih =>
    have hsums := ih fun n hn => h n (hn.trans (Nat.le_succ _))
    have hnonneg := h (k + 1) (Nat.le_succ _)
    have hfall := mul_le_mul_of_nonneg_right (hanti (Nat.le_succ k)) hnonneg
    rw [Finset.sum_range_succ, Finset.sum_range_succ _ (k + 1)]
    calc d (k + 1) * (∑ i ∈ Finset.range (k + 1), f i + f (k + 1))
        = d (k + 1) * ∑ i ∈ Finset.range (k + 1), f i + f (k + 1) * d (k + 1) := by ring
      _ ≤ ∑ i ∈ Finset.range (k + 1), f i * d i + f (k + 1) * d (k + 1) := by linarith

/-- With discounts that fall strictly, a discounted sum of nothing has no gains at all. -/
theorem eq_zero_of_sum_mul_eq_zero (hpos : ∀ i, 0 < d i) (hanti : StrictAnti d) {f : ℕ → 𝕜}
    {k : ℕ} (h : ∀ n ≤ k, 0 ≤ ∑ i ∈ Finset.range n, f i)
    (hzero : ∑ i ∈ Finset.range k, f i * d i = 0) : ∀ i < k, f i = 0 := by
  induction k with
  | zero => intro i hi; omega
  | succ k ih =>
    have hlast := mul_sum_le_sum_mul hanti.antitone h
    rw [hzero] at hlast
    have hsum : ∑ i ∈ Finset.range (k + 1), f i = 0 := by
      have hnonneg := h (k + 1) le_rfl
      by_contra hne
      exact absurd hlast (not_le.mpr (mul_pos (hpos k) (lt_of_le_of_ne hnonneg (Ne.symm hne))))
    have hsums : ∀ n ≤ k, 0 ≤ ∑ i ∈ Finset.range n, f i := fun n hn => h n (hn.trans k.le_succ)
    rw [Finset.sum_range_succ] at hsum hzero
    -- the last term is what the sum before it lacks, at a discount below all others
    have hbefore : ∑ i ∈ Finset.range k, f i * d i = d k * ∑ i ∈ Finset.range k, f i := by
      have hterm : f k = - ∑ i ∈ Finset.range k, f i := by linarith
      rw [hterm] at hzero
      linarith
    have hnil : ∑ i ∈ Finset.range k, f i = 0 := by
      cases k with
      | zero => rfl
      | succ k =>
        have hle := mul_sum_le_sum_mul hanti.antitone hsums
        rw [hbefore] at hle
        have hlt := hanti (Nat.lt_succ_self k)
        have hnonneg := hsums (k + 1) le_rfl
        by_contra hne
        have hgt := mul_lt_mul_of_pos_right hlt (lt_of_le_of_ne hnonneg (Ne.symm hne))
        exact absurd hle (not_le.mpr hgt)
    intro i hi
    rcases Nat.lt_succ_iff_lt_or_eq.mp hi with hi | rfl
    · exact ih hsums (by rw [hbefore, hnil, mul_zero]) i hi
    · linarith

/-- Taking at most `n` gains from a falling stock takes at most its first `n`. -/
theorem sum_le_sum_take (hys : ys.Pairwise (· ≥ ·)) (hnonneg : ∀ y ∈ ys, 0 ≤ y)
    (hsub : zs.Subperm ys) {n : ℕ} (hn : zs.length ≤ n) : zs.sum ≤ (ys.take n).sum := by
  induction ys generalizing zs n with
  | nil => rw [List.subperm_nil.mp hsub, List.take_nil]
  | cons y ys ih =>
    obtain ⟨hle, hys⟩ := List.pairwise_cons.mp hys
    have hrest : ∀ x ∈ ys, 0 ≤ x := fun x hx => hnonneg x (List.mem_cons_of_mem y hx)
    cases zs with
    | nil => exact List.sum_nonneg fun x hx => hnonneg x (List.mem_of_mem_take hx)
    | cons z zs =>
      obtain ⟨n, rfl⟩ : ∃ m, n = m + 1 := ⟨n - 1, by rw [List.length_cons] at hn; omega⟩
      rw [List.take_succ_cons, List.sum_cons (a := y)]
      by_cases hmem : y ∈ z :: zs
      · -- the largest gain is taken: take it first
        have hperm := List.perm_cons_erase hmem
        have hlength : ((z :: zs).erase y).length ≤ n := by
          rw [List.length_erase_of_mem hmem]
          omega
        have hsub' : ((z :: zs).erase y).Subperm ys :=
          (List.subperm_cons y).mp (hperm.symm.subperm.trans hsub)
        rw [hperm.sum_eq, List.sum_cons]
        exact add_le_add_right (ih hys hrest hsub' hlength) y
      · -- the first gain taken is at most the largest
        have hsub' : (z :: zs).Subperm ys := by
          have herase := hsub.erase y
          rwa [List.erase_of_not_mem hmem, List.erase_cons_head] at herase
        have hz : z ≤ y := hle z (hsub'.subset List.mem_cons_self)
        have hzs : zs.Subperm ys := (List.sublist_cons_self z zs).subperm.trans hsub'
        rw [List.sum_cons]
        exact add_le_add hz (ih hys hrest hzs (Nat.le_of_succ_le_succ hn))

omit [IsStrictOrderedRing 𝕜] in
theorem sum_filter_pos (hxs : ∀ x ∈ xs, 0 ≤ x) : (xs.filter (0 < ·)).sum = xs.sum := by
  induction xs with
  | nil => rfl
  | cons x xs ih =>
    have ih := ih fun y hy => hxs y (List.mem_cons_of_mem x hy)
    by_cases hx : 0 < x
    · rw [List.filter_cons_of_pos (by simpa using hx), List.sum_cons, List.sum_cons, ih]
    · rw [List.filter_cons_of_neg (by simpa using hx), List.sum_cons, ih,
        le_antisymm (not_lt.mp hx) (hxs x List.mem_cons_self), zero_add]

section Best

variable (hxs : ∀ x ∈ xs, 0 ≤ x) (hnonneg : ∀ y ∈ ys, 0 ≤ y) (hys : ys.Pairwise (· ≥ ·))
  (hsub : (xs.filter (0 < ·)).Subperm ys)
include hxs hnonneg hys hsub

/-- No prefix of the gains has more than the prefix of the falling stock. -/
theorem sum_take_le_sum_take (n : ℕ) : (xs.take n).sum ≤ (ys.take n).sum := by
  have htake : ∀ x ∈ xs.take n, 0 ≤ x := fun x hx => hxs x (List.mem_of_mem_take hx)
  have hsub' : ((xs.take n).filter (0 < ·)).Subperm ys :=
    ((List.take_sublist n xs).filter _).subperm.trans hsub
  have hlength : ((xs.take n).filter (0 < ·)).length ≤ n :=
    (List.length_filter_le _ _).trans (List.length_take_le n xs)
  rw [← sum_filter_pos htake]
  exact sum_le_sum_take hys hnonneg hsub' hlength

theorem sum_sub_nonneg (n : ℕ) :
    0 ≤ ∑ i ∈ Finset.range n, (ys.getD i 0 - xs.getD i 0) := by
  rw [Finset.sum_sub_distrib, ← sum_take_eq_sum, ← sum_take_eq_sum, sub_nonneg]
  exact sum_take_le_sum_take hxs hnonneg hys hsub n

omit [LinearOrder 𝕜] [IsStrictOrderedRing 𝕜] hxs hnonneg hys hsub in
theorem weigh_take_sub (k : ℕ) : weigh d (ys.take k) - weigh d (xs.take k) =
    ∑ i ∈ Finset.range k, (ys.getD i 0 - xs.getD i 0) * d i := by
  rw [weigh_eq_sum (List.length_take_le k ys), weigh_eq_sum (List.length_take_le k xs),
    ← Finset.sum_sub_distrib]
  refine Finset.sum_congr rfl fun i hi => ?_
  have htake : ∀ zs : List 𝕜, (zs.take k).getD i 0 = zs.getD i 0 := by
    intro zs
    rw [List.getD_eq_getElem?_getD, List.getD_eq_getElem?_getD,
      List.getElem?_take_of_lt (Finset.mem_range.mp hi)]
  rw [htake, htake, sub_mul]

/-- **The falling arrangement is the best one.** -/
theorem weigh_le_of_subperm (hpos : ∀ i, 0 ≤ d i) (hanti : Antitone d) (k : ℕ) :
    weigh d (xs.take k) ≤ weigh d (ys.take k) := by
  rw [← sub_nonneg, weigh_take_sub]
  cases k with
  | zero => exact le_rfl
  | succ k =>
    have hsums := sum_sub_nonneg hxs hnonneg hys hsub
    exact (mul_nonneg (hpos k) (hsums (k + 1))).trans
      (mul_sum_le_sum_mul hanti fun n _ => hsums n)

/-- **Another arrangement is as good when it has the same gains in the same places.** -/
theorem weigh_eq_iff_of_subperm (hpos : ∀ i, 0 < d i) (hanti : StrictAnti d) (k : ℕ) :
    weigh d (xs.take k) = weigh d (ys.take k) ↔ ∀ i < k, xs.getD i 0 = ys.getD i 0 := by
  have hsame : weigh d (xs.take k) = weigh d (ys.take k) ↔
      ∑ i ∈ Finset.range k, (ys.getD i 0 - xs.getD i 0) * d i = 0 := by
    rw [← weigh_take_sub, sub_eq_zero, eq_comm]
  rw [hsame]
  constructor
  · intro hzero i hi
    have hsums := sum_sub_nonneg hxs hnonneg hys hsub
    have hdiff := eq_zero_of_sum_mul_eq_zero hpos hanti (fun n _ => hsums n) hzero i hi
    exact (sub_eq_zero.mp hdiff).symm
  · intro heq
    refine Finset.sum_eq_zero fun i hi => ?_
    rw [heq i (Finset.mem_range.mp hi), sub_self, zero_mul]

end Best

end Discount
