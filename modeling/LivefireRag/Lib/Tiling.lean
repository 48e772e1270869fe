import Mathlib.Algebra.GroupWithZero.Nat
import Mathlib.Data.List.Basic
import Mathlib.Data.List.Range
import Mathlib.Data.List.Forall2
import Mathlib.Order.MinMax
import Mathlib.Algebra.Order.BigOperators.Group.List
import Mathlib.Algebra.Order.Group.Nat

/-!
# Tilings of an interval

A list of items tiles `[lo, hi)` when the items' own half-open ranges are
non-empty and follow one another without gap or overlap from `lo` to `hi`
(`Tiles`). The ranges are read off the items by two functions, so one notion
serves tasks, slices, objects and worker assignments alike.

Two families of facts are drawn from a tiling. Every point of the interval
lies in exactly one item (`Tiles.exists_covering`, `Tiles.covering_unique`).
And cutting any list along the tiling and concatenating the pieces gives the
list back between `lo` and `hi` (`Tiles.flatMap_segment`); applied to
`List.range` this enumerates the points of the interval in order.
-/

namespace Tiling

variable {α β γ : Type}

/-! ### Segments of a list -/

/-- The elements of `l` at positions `a`, …, `b - 1`. -/
def segment (l : List β) (a b : ℕ) : List β := (l.drop a).take (b - a)

@[simp] theorem segment_self (l : List β) (a : ℕ) : segment l a a = [] := by
  simp [segment]

theorem segment_append {l : List β} {a b c : ℕ} (hab : a ≤ b) (hbc : b ≤ c) :
    segment l a b ++ segment l b c = segment l a c := by
  unfold segment
  have hdrop : l.drop b = (l.drop a).drop (b - a) := by
    rw [List.drop_drop, Nat.add_sub_cancel' hab]
  have hlen : c - a = (b - a) + (c - b) := by omega
  rw [hdrop, hlen, List.take_add]

theorem segment_zero_length (l : List β) : segment l 0 l.length = l := by
  simp [segment]

theorem segment_cons {l : List β} {a b : ℕ} {x : β} (hx : l[a]? = some x) (hab : a < b) :
    segment l a b = x :: segment l (a + 1) b := by
  obtain ⟨hlt, rfl⟩ := List.getElem?_eq_some_iff.mp hx
  have hlen : b - a = b - (a + 1) + 1 := by omega
  rw [segment, List.drop_eq_getElem_cons hlt, hlen, List.take_succ_cons, segment]

theorem length_segment {l : List β} {a b : ℕ} (h : b ≤ l.length) :
    (segment l a b).length = b - a := by
  rw [segment, List.length_take, List.length_drop]
  omega

theorem getElem?_segment {l : List β} {a b i : ℕ} (h : i < b - a) :
    (segment l a b)[i]? = l[a + i]? := by
  rw [segment, List.getElem?_take_of_lt h, List.getElem?_drop]

theorem mem_segment {l : List β} {a b : ℕ} {x : β} :
    x ∈ segment l a b ↔ ∃ i, a ≤ i ∧ i < b ∧ l[i]? = some x := by
  constructor
  · intro h
    obtain ⟨i, hi⟩ := List.mem_iff_getElem?.mp h
    have hlt : i < b - a := by
      have h1 := (List.getElem?_eq_some_iff.mp hi).1
      rw [segment, List.length_take] at h1
      omega
    rw [getElem?_segment hlt] at hi
    exact ⟨a + i, Nat.le_add_right .., by omega, hi⟩
  · rintro ⟨i, hai, hib, hx⟩
    refine List.mem_iff_getElem?.mpr ⟨i - a, ?_⟩
    rw [getElem?_segment (by omega), Nat.add_sub_cancel' hai]
    exact hx

theorem segment_sublist (l : List β) (a b : ℕ) : (segment l a b).Sublist l :=
  (List.take_sublist _ _).trans (List.drop_sublist _ _)

theorem mem_of_mem_segment {l : List β} {a b : ℕ} {x : β} (h : x ∈ segment l a b) : x ∈ l :=
  (segment_sublist l a b).subset h

theorem sum_segment_le (l : List ℕ) (a b : ℕ) : (segment l a b).sum ≤ l.sum :=
  (segment_sublist l a b).sum_le_sum fun _ _ => Nat.zero_le _

theorem map_segment (f : β → γ) (l : List β) (a b : ℕ) :
    (segment l a b).map f = segment (l.map f) a b := by
  simp [segment]

theorem segment_range {n a b : ℕ} (h : b ≤ n) :
    segment (List.range n) a b = (List.range (b - a)).map (a + ·) := by
  apply List.ext_getElem?
  intro i
  by_cases hi : i < b - a
  · rw [getElem?_segment hi, List.getElem?_range (by omega), List.getElem?_map,
      List.getElem?_range hi]
    rfl
  · rw [List.getElem?_eq_none, List.getElem?_eq_none]
    · simpa using Nat.le_of_not_lt hi
    · rw [length_segment (by simpa using h)]
      omega

/-! ### Tilings -/

section Tiles

variable (start stop : α → ℕ)

/-- The ranges `[start x, stop x)` of the items follow one another from `lo` to
`hi`, each of them non-empty. -/
def Tiles : ℕ → List α → ℕ → Prop
  | lo, [], hi => lo = hi
  | lo, x :: xs, hi => start x = lo ∧ start x < stop x ∧ Tiles (stop x) xs hi

variable {start stop}

@[simp] theorem tiles_nil {lo hi : ℕ} : Tiles start stop lo [] hi ↔ lo = hi := Iff.rfl

theorem tiles_cons {x : α} {xs : List α} {lo hi : ℕ} :
    Tiles start stop lo (x :: xs) hi ↔
      start x = lo ∧ start x < stop x ∧ Tiles start stop (stop x) xs hi := Iff.rfl

theorem tiles_append {xs ys : List α} {lo hi : ℕ} :
    Tiles start stop lo (xs ++ ys) hi ↔
      ∃ mid, Tiles start stop lo xs mid ∧ Tiles start stop mid ys hi := by
  induction xs generalizing lo with
  | nil => simp
  | cons x xs ih =>
    simp only [List.cons_append, tiles_cons, ih]
    constructor
    · rintro ⟨h1, h2, mid, h3, h4⟩
      exact ⟨mid, ⟨h1, h2, h3⟩, h4⟩
    · rintro ⟨mid, ⟨h1, h2, h3⟩, h4⟩
      exact ⟨h1, h2, mid, h3, h4⟩

/-- A tiling grows at its end by an item that starts where it stops. -/
theorem Tiles.concat {xs : List α} {x : α} {lo mid : ℕ} (h : Tiles start stop lo xs mid)
    (hstart : start x = mid) (hlt : start x < stop x) :
    Tiles start stop lo (xs ++ [x]) (stop x) :=
  tiles_append.mpr ⟨mid, h, hstart, hlt, rfl⟩

/-- A tiling depends on the two range functions only through their values on
the items. -/
theorem Tiles.congr {start' stop' : α → ℕ} {xs : List α} {lo hi : ℕ}
    (hstart : ∀ x ∈ xs, start' x = start x) (hstop : ∀ x ∈ xs, stop' x = stop x)
    (h : Tiles start stop lo xs hi) : Tiles start' stop' lo xs hi := by
  induction xs generalizing lo with
  | nil => exact h
  | cons x xs ih =>
    obtain ⟨h1, h2, h3⟩ := h
    rw [List.forall_mem_cons] at hstart hstop
    refine ⟨hstart.1.trans h1, by rw [hstart.1, hstop.1]; exact h2, ?_⟩
    rw [hstop.1]
    exact ih hstart.2 hstop.2 h3

/-- Tiling by the images of a map is tiling by the composed range functions. -/
theorem tiles_map {f : β → α} {xs : List β} {lo hi : ℕ} :
    Tiles start stop lo (xs.map f) hi ↔ Tiles (start ∘ f) (stop ∘ f) lo xs hi := by
  induction xs generalizing lo with
  | nil => exact Iff.rfl
  | cons x xs ih => simp only [List.map_cons, tiles_cons, ih, Function.comp_apply]

/-- Items with the same ranges, one by one, tile the same interval. -/
theorem Tiles.forall₂ {start' stop' : β → ℕ} {xs : List α} {ys : List β} {lo hi : ℕ}
    (h : Tiles start stop lo xs hi)
    (hrel : List.Forall₂ (fun x y => start' y = start x ∧ stop' y = stop x) xs ys) :
    Tiles start' stop' lo ys hi := by
  induction hrel generalizing lo with
  | nil => exact h
  | cons hxy _ ih =>
    obtain ⟨h1, h2, h3⟩ := h
    rw [tiles_cons, hxy.1, hxy.2]
    exact ⟨h1, h2, ih h3⟩

theorem Tiles.le {xs : List α} {lo hi : ℕ} (h : Tiles start stop lo xs hi) : lo ≤ hi := by
  induction xs generalizing lo with
  | nil => exact Nat.le_of_eq h
  | cons x xs ih =>
    obtain ⟨h1, h2, h3⟩ := h
    have h4 := ih h3
    omega

theorem Tiles.eq_nil_iff {xs : List α} {lo hi : ℕ} (h : Tiles start stop lo xs hi) :
    xs = [] ↔ lo = hi := by
  cases xs with
  | nil => simpa using h
  | cons x xs =>
    obtain ⟨h1, h2, h3⟩ := h
    have h4 := h3.le
    simp only [reduceCtorEq, false_iff]
    omega

/-- Where a tiling stops is determined by where it starts. -/
theorem Tiles.stop_unique {xs : List α} {lo hi hi' : ℕ} (h : Tiles start stop lo xs hi)
    (h' : Tiles start stop lo xs hi') : hi = hi' := by
  induction xs generalizing lo with
  | nil =>
    obtain rfl : lo = hi := h
    exact h'
  | cons x xs ih => exact ih h.2.2 h'.2.2

/-- A tiling starts where its first item does. -/
theorem Tiles.start_eq {xs : List α} {lo hi : ℕ} (h : Tiles start stop lo xs hi) {x : α}
    (hx : xs.head? = some x) : start x = lo := by
  obtain ⟨ys, rfl⟩ := List.head?_eq_some_iff.mp hx
  exact h.1

/-- A tiling stops where its last item does. -/
theorem Tiles.stop_eq {xs : List α} {lo hi : ℕ} (h : Tiles start stop lo xs hi) {x : α}
    (hx : xs.getLast? = some x) : stop x = hi := by
  obtain ⟨ys, rfl⟩ := List.getLast?_eq_some_iff.mp hx
  obtain ⟨mid, -, hlast⟩ := tiles_append.mp h
  exact hlast.2.2

/-- A stretch of a tiling tiles an interval. -/
theorem Tiles.exists_segment {xs : List α} {lo hi : ℕ} (h : Tiles start stop lo xs hi) (a b : ℕ) :
    ∃ lo' hi', Tiles start stop lo' (segment xs a b) hi' := by
  rw [← List.take_append_drop a xs, tiles_append] at h
  obtain ⟨lo', -, hrest⟩ := h
  rw [← List.take_append_drop (b - a) (xs.drop a), tiles_append] at hrest
  obtain ⟨hi', hsegment, -⟩ := hrest
  exact ⟨lo', hi', hsegment⟩

/-- Cutting a tiling into non-empty groups that each tile an interval gives a
tiling by these intervals. -/
theorem Tiles.of_flatMap {f : β → List α} {start' stop' : β → ℕ} {ys : List β} {lo hi : ℕ}
    (h : Tiles start stop lo (ys.flatMap f) hi)
    (hgroup : ∀ y ∈ ys, f y ≠ [] ∧ start' y < stop' y ∧
      Tiles start stop (start' y) (f y) (stop' y)) : Tiles start' stop' lo ys hi := by
  induction ys generalizing lo with
  | nil => exact h
  | cons y ys ih =>
    rw [List.forall_mem_cons] at hgroup
    obtain ⟨⟨hne, hlt, htiles⟩, hrest⟩ := hgroup
    rw [List.flatMap_cons, tiles_append] at h
    obtain ⟨mid, hfirst, hothers⟩ := h
    -- the group starts where its first item does
    obtain ⟨x, xs, hx⟩ := List.exists_cons_of_ne_nil hne
    have hlo : start' y = lo := by
      rw [hx] at hfirst htiles
      exact htiles.1.symm.trans hfirst.1
    subst hlo
    obtain rfl : stop' y = mid := htiles.stop_unique hfirst
    exact ⟨rfl, hlt, ih hothers hrest⟩

/-- The pairs of neighbours of an increasing list tile the interval from its
first element to its last. -/
theorem tiles_neighbours {b : ℕ} {bs : List ℕ} (h : (b :: bs).Pairwise (· < ·)) :
    Tiles Prod.fst Prod.snd b ((b :: bs).zip bs) ((b :: bs).getLast (List.cons_ne_nil _ _)) := by
  induction bs generalizing b with
  | nil => exact rfl
  | cons c cs ih =>
    have hlt : b < c := (List.pairwise_cons.mp h).1 c (List.mem_cons_self ..)
    exact ⟨rfl, hlt, ih (List.pairwise_cons.mp h).2⟩

/-- Every item of a tiling of `[lo, hi)` is a non-empty range inside it. -/
theorem Tiles.bounds {xs : List α} {lo hi : ℕ} (h : Tiles start stop lo xs hi) {x : α}
    (hx : x ∈ xs) : lo ≤ start x ∧ start x < stop x ∧ stop x ≤ hi := by
  induction xs generalizing lo with
  | nil => exact absurd hx (List.not_mem_nil)
  | cons y ys ih =>
    obtain ⟨h1, h2, h3⟩ := h
    rcases List.mem_cons.mp hx with rfl | hx
    · exact ⟨h1.ge, h2, h3.le⟩
    · have h4 := ih h3 hx
      omega

/-- In a tiling every item stops before the later ones start. -/
theorem Tiles.pairwise {xs : List α} {lo hi : ℕ} (h : Tiles start stop lo xs hi) :
    xs.Pairwise fun x y => stop x ≤ start y := by
  induction xs generalizing lo with
  | nil => exact List.Pairwise.nil
  | cons x xs ih =>
    obtain ⟨-, -, h3⟩ := h
    exact List.Pairwise.cons (fun y hy => (h3.bounds hy).1) (ih h3)

/-- The lengths of the items add up to the length of the interval. -/
theorem Tiles.sum_length {xs : List α} {lo hi : ℕ} (h : Tiles start stop lo xs hi) :
    (xs.map fun x => stop x - start x).sum = hi - lo := by
  induction xs generalizing lo with
  | nil =>
    obtain rfl : lo = hi := h
    simp
  | cons x xs ih =>
    obtain ⟨h1, h2, h3⟩ := h
    have h4 := h3.le
    rw [List.map_cons, List.sum_cons, ih h3]
    omega

/-- Two positions of a tiling whose items share a point are the same
position. -/
theorem Tiles.covering_unique {xs : List α} {lo hi : ℕ} (h : Tiles start stop lo xs hi)
    {i j n : ℕ} {x y : α} (hx : xs[i]? = some x) (hy : xs[j]? = some y)
    (hxn : start x ≤ n ∧ n < stop x) (hyn : start y ≤ n ∧ n < stop y) : i = j := by
  have hpw := List.pairwise_iff_getElem.mp h.pairwise
  obtain ⟨hi', rfl⟩ := List.getElem?_eq_some_iff.mp hx
  obtain ⟨hj', rfl⟩ := List.getElem?_eq_some_iff.mp hy
  rcases Nat.lt_trichotomy i j with hlt | heq | hgt
  · have h1 := hpw i j hi' hj' hlt
    omega
  · exact heq
  · have h1 := hpw j i hj' hi' hgt
    omega

/-- Every point of the interval lies in an item. -/
theorem Tiles.exists_covering {xs : List α} {lo hi : ℕ} (h : Tiles start stop lo xs hi)
    {n : ℕ} (hlo : lo ≤ n) (hhi : n < hi) :
    ∃ (i : ℕ) (x : α), xs[i]? = some x ∧ start x ≤ n ∧ n < stop x := by
  induction xs generalizing lo with
  | nil =>
    obtain rfl : lo = hi := h
    omega
  | cons x xs ih =>
    obtain ⟨h1, -, h3⟩ := h
    by_cases hn : n < stop x
    · exact ⟨0, x, rfl, by omega, hn⟩
    · obtain ⟨i, y, hy, hyn⟩ := ih h3 (by omega)
      exact ⟨i + 1, y, hy, hyn⟩

/-- **Cutting along a tiling.** The segments of a list at the items' ranges
concatenate to its segment at the whole interval. -/
theorem Tiles.flatMap_segment {xs : List α} {lo hi : ℕ} (h : Tiles start stop lo xs hi)
    (l : List β) :
    (xs.flatMap fun x => segment l (start x) (stop x)) = segment l lo hi := by
  induction xs generalizing lo with
  | nil =>
    obtain rfl : lo = hi := h
    simp
  | cons x xs ih =>
    obtain ⟨rfl, h2, h3⟩ := h
    rw [List.flatMap_cons, ih h3, segment_append h2.le h3.le]

/-- Lists related to the segments at the items' ranges are, strung together,
related to the segment at the whole interval. -/
theorem Tiles.forall₂_flatMap {R : β → γ → Prop} {f : α → List γ} {xs : List α} {lo hi : ℕ}
    (h : Tiles start stop lo xs hi) (l : List β)
    (hf : ∀ x ∈ xs, List.Forall₂ R (segment l (start x) (stop x)) (f x)) :
    List.Forall₂ R (segment l lo hi) (xs.flatMap f) := by
  induction xs generalizing lo with
  | nil =>
    obtain rfl : lo = hi := h
    simp
  | cons x xs ih =>
    obtain ⟨rfl, h2, h3⟩ := h
    rw [List.forall_mem_cons] at hf
    rw [← segment_append h2.le h3.le, List.flatMap_cons]
    exact List.rel_append hf.1 (ih h3 hf.2)

/-- Totals of the segments add up to the total of the whole. -/
theorem Tiles.sum_segment {xs : List α} {lo hi : ℕ} (h : Tiles start stop lo xs hi) (l : List ℕ) :
    (xs.map fun x => (segment l (start x) (stop x)).sum).sum = (segment l lo hi).sum := by
  induction xs generalizing lo with
  | nil =>
    obtain rfl : lo = hi := h
    simp
  | cons x xs ih =>
    obtain ⟨rfl, h2, h3⟩ := h
    rw [List.map_cons, List.sum_cons, ih h3, ← List.sum_append, segment_append h2.le h3.le]

/-- The maximum of the maxima of the segments is the maximum of the whole. -/
theorem Tiles.max?_segment [LinearOrder β] {xs : List α} {lo hi : ℕ}
    (h : Tiles start stop lo xs hi) {l : List β} {maximum : α → β}
    (hmax : ∀ x ∈ xs, (segment l (start x) (stop x)).max? = some (maximum x)) :
    (xs.map maximum).max? = (segment l lo hi).max? := by
  rw [← h.flatMap_segment l]
  cases hxs : (xs.map maximum).max? with
  | none =>
    obtain rfl : xs = [] := by simpa using hxs
    rfl
  | some m =>
    obtain ⟨hmem, hle⟩ := List.max?_eq_some_iff.mp hxs
    obtain ⟨x, hx, rfl⟩ := List.mem_map.mp hmem
    symm
    rw [List.max?_eq_some_iff]
    refine ⟨List.mem_flatMap.mpr ⟨x, hx, (List.max?_eq_some_iff.mp (hmax x hx)).1⟩, ?_⟩
    intro b hb
    obtain ⟨y, hy, hby⟩ := List.mem_flatMap.mp hb
    calc b ≤ maximum y := (List.max?_eq_some_iff.mp (hmax y hy)).2 b hby
      _ ≤ maximum x := hle _ (List.mem_map_of_mem hy)

/-- The points of the items of a tiling of `[0, n)`, in order, are
`0, …, n - 1`. -/
theorem Tiles.flatMap_range {xs : List α} {n : ℕ} (h : Tiles start stop 0 xs n) :
    (xs.flatMap fun x => (List.range (stop x - start x)).map (start x + ·)) = List.range n := by
  have hseg := h.flatMap_segment (List.range n)
  have hwhole : segment (List.range n) 0 n = List.range n := by
    simpa using segment_zero_length (List.range n)
  rw [hwhole] at hseg
  refine Eq.trans ?_ hseg
  rw [List.flatMap_def, List.flatMap_def]
  congr 1
  exact List.map_congr_left fun x hx => (segment_range (h.bounds hx).2.2).symm

end Tiles

end Tiling
