import Mathlib.Algebra.BigOperators.Group.List.Basic
import Mathlib.Data.List.Induction
import Mathlib.Data.List.Nodup
import LivefireRag.Lib.Fallible

/-!
# Loops over streams

A stream is a list of results, and a loop over it stops at the first error. Where the
state of the loop is what the elements so far describe, the loop is known exactly by
what it asks of an element after those before it: `foldlM_stream_eq_ok`.

What is asked of every element after those before it (`Admitted`) is then a fact about
the whole list: about positions (`admitted_position_iff`), distinct keys
(`admitted_fresh_iff`), ascending keys (`admitted_ascending_iff`) or a running total
(`admitted_total_iff`).
-/

namespace Fallible

variable {ε α σ : Type}

/-- Every element is good after the elements before it. -/
def Admitted (good : List α → α → Prop) (xs : List α) : Prop :=
  ∀ before y after, xs = before ++ y :: after → good before y

theorem admitted_nil (good : List α → α → Prop) : Admitted good [] := by
  intro before y after hsplit
  cases before <;> cases hsplit

theorem admitted_concat_iff {good : List α → α → Prop} {xs : List α} {x : α} :
    Admitted good (xs ++ [x]) ↔ Admitted good xs ∧ good xs x := by
  constructor
  · intro h
    refine ⟨fun before y after hsplit => ?_, h xs x [] rfl⟩
    refine h before y (after ++ [x]) ?_
    rw [hsplit, List.append_assoc, List.cons_append]
  · rintro ⟨hxs, hx⟩ before y after hsplit
    rcases List.eq_nil_or_concat after with rfl | ⟨after, z, rfl⟩
    · obtain ⟨rfl, hy⟩ := List.append_inj' hsplit rfl
      rwa [← List.singleton_injective hy]
    · rw [List.concat_eq_append, ← List.cons_append, ← List.append_assoc] at hsplit
      exact hxs before y after (List.append_inj' hsplit rfl).1

theorem admitted_and_iff {good good' : List α → α → Prop} {xs : List α} :
    Admitted (fun pre x => good pre x ∧ good' pre x) xs ↔ Admitted good xs ∧ Admitted good' xs :=
  ⟨fun h => ⟨fun before y after hsplit => (h before y after hsplit).1,
    fun before y after hsplit => (h before y after hsplit).2⟩,
    fun h before y after hsplit => ⟨h.1 before y after hsplit, h.2 before y after hsplit⟩⟩

/-- **The stream rule.** When the state is what the elements so far describe, and the
next element goes through when it is good after them, the loop returns what all the
elements describe, and it returns when the stream has no errors and good elements. -/
theorem foldlM_stream_eq_ok {f : σ → Except ε α → Except ε σ} {describe : List α → σ}
    {good : List α → α → Prop} (herror : ∀ s e, f s (.error e) = .error e)
    (hstep : ∀ pre x t, Admitted good pre →
      (f (describe pre) (.ok x) = .ok t ↔ good pre x ∧ t = describe (pre ++ [x])))
    {stream : List (Except ε α)} {t : σ} :
    stream.foldlM f (describe []) = .ok t ↔ ∃ xs, stream = xs.map .ok ∧
      Admitted good xs ∧ t = describe xs := by
  suffices H : ∀ (post : List (Except ε α)) (pre : List α),
      Admitted good pre →
      (post.foldlM f (describe pre) = .ok t ↔ ∃ xs, post = xs.map .ok ∧
        Admitted good (pre ++ xs) ∧ t = describe (pre ++ xs)) from
    H stream [] (admitted_nil good)
  intro post
  induction post with
  | nil =>
    intro pre hpre
    rw [List.foldlM_nil, pure_eq_ok]
    constructor
    · rintro rfl
      exact ⟨[], rfl, by rwa [List.append_nil], by rw [List.append_nil]⟩
    · rintro ⟨xs, hxs, -, rfl⟩
      rw [List.map_eq_nil_iff.mp hxs.symm, List.append_nil]
  | cons x post ih =>
    intro pre hpre
    rw [List.foldlM_cons]
    cases x with
    | error e =>
      rw [herror]
      constructor
      · intro h
        cases h
      · rintro ⟨xs, hxs, -⟩
        cases xs <;> cases hxs
    | ok x =>
      have hconcat : good pre x → Admitted good (pre ++ [x]) := fun hx =>
        admitted_concat_iff.mpr ⟨hpre, hx⟩
      rw [bind_eq_ok]
      constructor
      · rintro ⟨s, hs, hrun⟩
        obtain ⟨hx, rfl⟩ := (hstep pre x s hpre).mp hs
        obtain ⟨xs, rfl, hgood, rfl⟩ := (ih (pre ++ [x]) (hconcat hx)).mp hrun
        have happend := List.append_cons pre x xs
        exact ⟨x :: xs, rfl, by rwa [happend], by rw [happend]⟩
      · rintro ⟨xs, hxs, hgood, rfl⟩
        cases xs with
        | nil => cases hxs
        | cons y xs =>
          obtain ⟨heq, rfl⟩ := List.cons.inj hxs
          cases heq
          have hx := hgood pre x xs rfl
          refine ⟨_, (hstep pre x _ hpre).mpr ⟨hx, rfl⟩, ?_⟩
          refine (ih (pre ++ [x]) (hconcat hx)).mpr ⟨xs, rfl, ?_, ?_⟩
          · rwa [← List.append_cons]
          · rw [← List.append_cons]

/-! ### What is asked at every position -/

theorem admitted_forall_iff {p : α → Prop} {xs : List α} :
    Admitted (fun _ x => p x) xs ↔ ∀ x ∈ xs, p x := by
  constructor
  · intro h x hx
    obtain ⟨before, after, hsplit⟩ := List.append_of_mem hx
    exact h before x after hsplit
  · rintro h before y after rfl
    exact h y (List.mem_append_right _ (List.mem_cons_self ..))

theorem admitted_position_iff {p : ℕ → α → Prop} {xs : List α} :
    Admitted (fun pre x => p pre.length x) xs ↔ ∀ i x, xs[i]? = some x → p i x := by
  constructor
  · intro h i x hx
    obtain ⟨hi, rfl⟩ := List.getElem?_eq_some_iff.mp hx
    have hsplit : xs = xs.take i ++ xs[i] :: xs.drop (i + 1) := by
      rw [← List.drop_eq_getElem_cons hi, List.take_append_drop]
    have hgood : p (xs.take i).length xs[i] := h _ _ _ hsplit
    rwa [List.length_take, Nat.min_eq_left (Nat.le_of_lt hi)] at hgood
  · rintro h before y after rfl
    refine h before.length y ?_
    rw [List.getElem?_append_right (Nat.le_refl _), Nat.sub_self, List.getElem?_cons_zero]

theorem admitted_fresh_iff {κ : Type} {key : α → κ} {xs : List α} :
    Admitted (fun pre x => key x ∉ pre.map key) xs ↔ (xs.map key).Nodup := by
  induction xs using List.reverseRecOn with
  | nil => exact iff_of_true (admitted_nil _) List.nodup_nil
  | append_singleton xs x ih =>
    rw [admitted_concat_iff, ih, List.map_append, List.map_singleton, List.nodup_append]
    simp

/-- Each element follows the last one, so each follows all of them. -/
theorem admitted_ascending_iff {r : α → α → Prop} (htrans : ∀ a b c, r a b → r b c → r a c)
    {xs : List α} :
    Admitted (fun pre x => ∀ last ∈ pre.getLast?, r last x) xs ↔ xs.Pairwise r := by
  induction xs using List.reverseRecOn with
  | nil => exact iff_of_true (admitted_nil _) List.Pairwise.nil
  | append_singleton xs x ih =>
    rw [admitted_concat_iff, ih, List.pairwise_append]
    constructor
    · rintro ⟨hpairwise, hlast⟩
      refine ⟨hpairwise, List.pairwise_singleton _ _, fun y hy z hz => ?_⟩
      obtain rfl := List.mem_singleton.mp hz
      rcases List.eq_nil_or_concat xs with rfl | ⟨init, last, rfl⟩
      · cases hy
      · have hz := hlast last (by simp)
        rw [List.concat_eq_append, List.pairwise_append] at hpairwise
        rw [List.concat_eq_append, List.mem_append, List.mem_singleton] at hy
        rcases hy with hy | rfl
        · exact htrans _ _ _ (hpairwise.2.2 y hy last (List.mem_singleton_self _)) hz
        · exact hz
    · rintro ⟨hpairwise, -, hcross⟩
      refine ⟨hpairwise, fun last hlast => ?_⟩
      exact hcross last (List.mem_of_getLast? hlast) x (List.mem_singleton_self _)

/-- A total that stays below a positive bound after every element is below it at the
end. -/
theorem admitted_total_iff {g : α → ℕ} {bound : ℕ} (hbound : 0 < bound) {xs : List α} :
    Admitted (fun pre x => (pre.map g).sum + g x < bound) xs ↔ (xs.map g).sum < bound := by
  induction xs using List.reverseRecOn with
  | nil => exact iff_of_true (admitted_nil _) hbound
  | append_singleton xs x ih =>
    rw [admitted_concat_iff, ih, List.map_append, List.sum_append, List.map_singleton,
      List.sum_singleton]
    omega

/-- A count that stays below a positive bound. -/
theorem admitted_length_iff {bound : ℕ} (hbound : 0 < bound) {xs : List α} :
    Admitted (fun pre _ => pre.length + 1 < bound) xs ↔ xs.length < bound := by
  induction xs using List.reverseRecOn with
  | nil => exact iff_of_true (admitted_nil _) hbound
  | append_singleton xs x ih =>
    rw [admitted_concat_iff, ih, List.length_append, List.length_singleton]
    omega

theorem admitted_length_lt_iff {bound : ℕ} {xs : List α} :
    Admitted (fun pre _ => pre.length < bound) xs ↔ xs.length ≤ bound := by
  induction xs using List.reverseRecOn with
  | nil => exact iff_of_true (admitted_nil _) (Nat.zero_le _)
  | append_singleton xs x ih =>
    rw [admitted_concat_iff, ih, List.length_append, List.length_singleton]
    omega

end Fallible
