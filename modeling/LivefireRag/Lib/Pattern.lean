import Mathlib.Data.List.Basic

/-!
# Patterns

Patterns of words over an alphabet, as a backtracking engine tries them: an alternative
after the one before it, and a repetition of a class with as many characters as there are
before fewer. `splits` lists every way a pattern matches at the start of a text, in this
order, and `Matches` is the language; the list has exactly the words of the language
(`mem_splits_iff`).
-/

/-- Patterns. What repeats without a bound is a class of characters. -/
inductive Pattern (α : Type) where
  | empty
  | one (accepts : α → Bool)
  | many (accepts : α → Bool)
  | seq (first second : Pattern α)
  | alt (first second : Pattern α)

namespace Pattern

variable {α : Type} {accepts : α → Bool} {first second r : Pattern α} {w xs ys : List α}

/-! ### Bounded repetition -/

/-- A pattern a number of times. -/
def times (r : Pattern α) : ℕ → Pattern α
  | 0 => .empty
  | count + 1 => .seq r (r.times count)

def optional (r : Pattern α) : Pattern α := .alt r .empty

/-- Characters of a class, at least a number of them. -/
def atLeast (count : ℕ) (accepts : α → Bool) : Pattern α :=
  .seq ((one accepts).times count) (.many accepts)

/-! ### Ways to match -/

/-- The longest run of a class first. -/
def runs (accepts : α → Bool) : List α → List (List α × List α)
  | [] => [([], [])]
  | c :: cs =>
    if accepts c then (runs accepts cs).map (fun split => (c :: split.1, split.2)) ++ [([], c :: cs)]
    else [([], c :: cs)]

/-- Every way to match at the start of a text, with the rest of the text. -/
def splits : Pattern α → List α → List (List α × List α)
  | .empty, xs => [([], xs)]
  | .one accepts, xs =>
    match xs with
    | [] => []
    | c :: cs => if accepts c then [([c], cs)] else []
  | .many accepts, xs => runs accepts xs
  | .seq first second, xs => (first.splits xs).flatMap fun split =>
    (second.splits split.2).map fun next => (split.1 ++ next.1, next.2)
  | .alt first second, xs => first.splits xs ++ second.splits xs

theorem runs_cons (accepts : α → Bool) (c : α) (cs : List α) : runs accepts (c :: cs) =
    if accepts c then (runs accepts cs).map (fun split => (c :: split.1, split.2)) ++ [([], c :: cs)]
    else [([], c :: cs)] := rfl

theorem splits_one_cons (accepts : α → Bool) (c : α) (cs : List α) :
    (one accepts).splits (c :: cs) = if accepts c then [([c], cs)] else [] := rfl

theorem splits_many (accepts : α → Bool) (xs : List α) :
    (many accepts).splits xs = runs accepts xs := rfl

theorem splits_seq (first second : Pattern α) (xs : List α) :
    (Pattern.seq first second).splits xs = (first.splits xs).flatMap fun split =>
      (second.splits split.2).map fun next => (split.1 ++ next.1, next.2) := rfl

/-- The language of a pattern. -/
inductive Matches : Pattern α → List α → Prop where
  | empty : Matches .empty []
  | one {accepts : α → Bool} {c : α} (h : accepts c) : Matches (.one accepts) [c]
  | many {accepts : α → Bool} {w : List α} (h : ∀ c ∈ w, accepts c) : Matches (.many accepts) w
  | seq {first second : Pattern α} {u v : List α} (hu : first.Matches u) (hv : second.Matches v) :
    Matches (.seq first second) (u ++ v)
  | left {first second : Pattern α} {w : List α} (h : first.Matches w) :
    Matches (.alt first second) w
  | right {first second : Pattern α} {w : List α} (h : second.Matches w) :
    Matches (.alt first second) w

/-- The leftmost matches from a position on, apart from each other, as the positions of
their first character and of the character behind them. Each is the first way to match, and
the search goes on behind it; a match without characters is not one. -/
def findFrom (r : Pattern α) : ℕ → ℕ → List α → List (ℕ × ℕ)
  | _, _, [] => []
  | skip + 1, position, _ :: cs => r.findFrom skip (position + 1) cs
  | 0, position, c :: cs =>
    match (r.splits (c :: cs)).head? with
    | some (w, _) =>
      if w = [] then r.findFrom 0 (position + 1) cs
      else (position, position + w.length) :: r.findFrom (w.length - 1) (position + 1) cs
    | none => r.findFrom 0 (position + 1) cs

def findIter (r : Pattern α) (xs : List α) : List (ℕ × ℕ) := r.findFrom 0 0 xs

/-! ### What a word of each shape is -/

theorem matches_empty : (Pattern.empty : Pattern α).Matches w ↔ w = [] := by
  constructor
  · rintro ⟨⟩
    rfl
  · rintro rfl
    exact .empty

theorem matches_one : (Pattern.one accepts).Matches w ↔ ∃ c, accepts c ∧ w = [c] := by
  constructor
  · intro h
    cases h with
    | one h => exact ⟨_, h, rfl⟩
  · rintro ⟨c, h, rfl⟩
    exact .one h

theorem matches_many : (Pattern.many accepts).Matches w ↔ ∀ c ∈ w, accepts c := by
  constructor
  · intro h
    cases h with
    | many h => exact h
  · exact .many

theorem matches_seq : (Pattern.seq first second).Matches w ↔
    ∃ u v, w = u ++ v ∧ first.Matches u ∧ second.Matches v := by
  constructor
  · intro h
    cases h with
    | seq hu hv => exact ⟨_, _, rfl, hu, hv⟩
  · rintro ⟨u, v, rfl, hu, hv⟩
    exact .seq hu hv

theorem matches_alt : (Pattern.alt first second).Matches w ↔ first.Matches w ∨ second.Matches w := by
  constructor
  · intro h
    cases h with
    | left h => exact .inl h
    | right h => exact .inr h
  · rintro (h | h)
    · exact .left h
    · exact .right h

/-- A number of characters of a class. -/
theorem matches_times_one {count : ℕ} : ((one accepts).times count).Matches w ↔
    w.length = count ∧ ∀ c ∈ w, accepts c := by
  induction count generalizing w with
  | zero =>
    rw [times, matches_empty, List.length_eq_zero_iff]
    refine (and_iff_left_of_imp ?_).symm
    rintro rfl c hc
    cases hc
  | succ count ih =>
    rw [times, matches_seq]
    constructor
    · rintro ⟨u, v, rfl, hu, hv⟩
      obtain ⟨c, hc, rfl⟩ := matches_one.mp hu
      obtain ⟨rfl, hall⟩ := ih.mp hv
      exact ⟨rfl, List.forall_mem_cons.mpr ⟨hc, hall⟩⟩
    · rintro ⟨hlength, hall⟩
      cases w with
      | nil => cases hlength
      | cons c w =>
        obtain ⟨hc, hall⟩ := List.forall_mem_cons.mp hall
        exact ⟨[c], w, rfl, .one hc, ih.mpr ⟨Nat.succ.inj hlength, hall⟩⟩

theorem matches_atLeast {count : ℕ} : (atLeast count accepts).Matches w ↔
    count ≤ w.length ∧ ∀ c ∈ w, accepts c := by
  rw [atLeast, matches_seq]
  constructor
  · rintro ⟨u, v, rfl, hu, hv⟩
    obtain ⟨rfl, hall⟩ := matches_times_one.mp hu
    rw [List.length_append]
    exact ⟨Nat.le_add_right _ _, List.forall_mem_append.mpr ⟨hall, matches_many.mp hv⟩⟩
  · rintro ⟨hlength, hall⟩
    refine ⟨w.take count, w.drop count, (List.take_append_drop count w).symm, ?_, ?_⟩
    · exact matches_times_one.mpr ⟨List.length_take_of_le hlength,
        fun c hc => hall c (List.mem_of_mem_take hc)⟩
    · exact .many fun c hc => hall c (List.mem_of_mem_drop hc)

/-! ### Characters of the words -/

/-- A class of the pattern accepts the character. -/
def uses : Pattern α → α → Bool
  | .empty, _ => false
  | .one accepts, c => accepts c
  | .many accepts, c => accepts c
  | .seq first second, c => first.uses c || second.uses c
  | .alt first second, c => first.uses c || second.uses c

theorem Matches.uses (h : r.Matches w) {c : α} (hc : c ∈ w) : r.uses c := by
  induction h with
  | empty => cases hc
  | one h =>
    obtain rfl := List.mem_singleton.mp hc
    exact h
  | many h => exact h c hc
  | seq _ _ ihfirst ihsecond =>
    refine Bool.or_eq_true_iff.mpr ?_
    exact (List.mem_append.mp hc).imp ihfirst ihsecond
  | left _ ih => exact Bool.or_eq_true_iff.mpr (.inl (ih hc))
  | right _ ih => exact Bool.or_eq_true_iff.mpr (.inr (ih hc))

/-- Every word has a character. -/
def Demands (r : Pattern α) (c : α) : Prop := ∀ w, r.Matches w → c ∈ w

theorem demands_one {c : α} (h : ∀ d, accepts d → d = c) : (one accepts).Demands c := by
  intro w hw
  obtain ⟨d, hd, rfl⟩ := matches_one.mp hw
  rw [h d hd]
  exact List.mem_singleton_self c

theorem Demands.seq_left {c : α} (h : first.Demands c) (second : Pattern α) :
    (Pattern.seq first second).Demands c := by
  intro w hw
  obtain ⟨u, v, rfl, hu, -⟩ := matches_seq.mp hw
  exact List.mem_append_left v (h u hu)

theorem Demands.seq_right {c : α} (first : Pattern α) (h : second.Demands c) :
    (Pattern.seq first second).Demands c := by
  intro w hw
  obtain ⟨u, v, rfl, -, hv⟩ := matches_seq.mp hw
  exact List.mem_append_right u (h v hv)

/-- Every word ends with a character of a class. -/
def EndsIn (r : Pattern α) (accepts : α → Bool) : Prop :=
  ∀ w, r.Matches w → ∃ c ∈ w.getLast?, accepts c

theorem EndsIn.ne_nil (h : r.EndsIn accepts) (hw : r.Matches w) : w ≠ [] := by
  rintro rfl
  obtain ⟨c, hc, -⟩ := h [] hw
  cases hc

theorem endsIn_one {wider : α → Bool} (h : ∀ c, accepts c → wider c) :
    (one accepts).EndsIn wider := by
  intro w hw
  obtain ⟨c, hc, rfl⟩ := matches_one.mp hw
  exact ⟨c, rfl, h c hc⟩

theorem EndsIn.alt (hfirst : first.EndsIn accepts) (hsecond : second.EndsIn accepts) :
    (Pattern.alt first second).EndsIn accepts := by
  intro w hw
  exact (matches_alt.mp hw).elim (hfirst w) (hsecond w)

/-- A sequence ends as its last part does. -/
theorem EndsIn.seq (first : Pattern α) (h : second.EndsIn accepts) :
    (Pattern.seq first second).EndsIn accepts := by
  intro w hw
  obtain ⟨u, v, rfl, -, hv⟩ := matches_seq.mp hw
  obtain ⟨c, hc, haccepts⟩ := h v hv
  refine ⟨c, ?_, haccepts⟩
  rw [List.getLast?_append, hc]
  rfl

theorem EndsIn.times (h : r.EndsIn accepts) (count : ℕ) :
    (r.times (count + 1)).EndsIn accepts := by
  induction count with
  | zero =>
    intro w hw
    obtain ⟨u, v, rfl, hu, hv⟩ := matches_seq.mp hw
    obtain rfl := matches_empty.mp hv
    rw [List.append_nil]
    exact h u hu
  | succ count ih => exact .seq r ih

theorem endsIn_atLeast {wider : α → Bool} (count : ℕ) (h : ∀ c, accepts c → wider c) :
    (atLeast (count + 1) accepts).EndsIn wider := by
  intro w hw
  obtain ⟨hlength, hall⟩ := matches_atLeast.mp hw
  have hne : w ≠ [] := List.ne_nil_of_length_pos (Nat.lt_of_lt_of_le (Nat.succ_pos count) hlength)
  exact ⟨w.getLast hne, List.getLast?_eq_some_getLast hne, h _ (hall _ (List.getLast_mem hne))⟩

/-- Every word begins with a character of a class. -/
def BeginsIn (r : Pattern α) (accepts : α → Bool) : Prop :=
  ∀ w, r.Matches w → ∃ c ∈ w.head?, accepts c

theorem beginsIn_one (accepts : α → Bool) : (one accepts).BeginsIn accepts := by
  intro w hw
  obtain ⟨c, hc, rfl⟩ := matches_one.mp hw
  exact ⟨c, rfl, hc⟩

/-- A sequence begins as its first part does. -/
theorem BeginsIn.seq (h : first.BeginsIn accepts) (second : Pattern α) :
    (Pattern.seq first second).BeginsIn accepts := by
  intro w hw
  obtain ⟨u, v, rfl, hu, -⟩ := matches_seq.mp hw
  obtain ⟨c, hc, haccepts⟩ := h u hu
  refine ⟨c, ?_, haccepts⟩
  rw [List.head?_append, hc]
  rfl

theorem beginsIn_atLeast (count : ℕ) (accepts : α → Bool) :
    (atLeast (count + 1) accepts).BeginsIn accepts :=
  .seq (.seq (beginsIn_one accepts) _) _

/-- A run may be extended at its beginning. -/
theorem Matches.cons_atLeast {count : ℕ} {c : α} (h : (atLeast count accepts).Matches w)
    (hc : accepts c) : (atLeast count accepts).Matches (c :: w) := by
  obtain ⟨hlength, hall⟩ := matches_atLeast.mp h
  exact matches_atLeast.mpr ⟨Nat.le_succ_of_le hlength, List.forall_mem_cons.mpr ⟨hc, hall⟩⟩

/-! ### The list of ways and the language -/

theorem mem_runs_iff : (w, ys) ∈ runs accepts xs ↔ w ++ ys = xs ∧ ∀ c ∈ w, accepts c := by
  induction xs generalizing w with
  | nil =>
    rw [runs, List.mem_singleton, Prod.mk.injEq, List.append_eq_nil_iff]
    refine (and_iff_left_of_imp ?_).symm
    rintro ⟨rfl, -⟩ c hc
    cases hc
  | cons d xs ih =>
    rw [runs_cons]
    cases w with
    | nil =>
      have hhere : ([] ++ ys = d :: xs ∧ ∀ c ∈ ([] : List α), accepts c) ↔ ys = d :: xs :=
        and_iff_left fun c hc => absurd hc List.not_mem_nil
      rw [hhere]
      split
      · simp
      · simp
    | cons c w =>
      rw [List.cons_append, List.cons.injEq, List.forall_mem_cons]
      split
      · next hd =>
        simp only [List.mem_append, List.mem_map, List.mem_singleton, Prod.mk.injEq,
          reduceCtorEq, false_and, or_false]
        constructor
        · rintro ⟨⟨w', ys'⟩, hmem, hcons, rfl⟩
          obtain ⟨rfl, rfl⟩ := List.cons.inj hcons
          obtain ⟨rfl, hall⟩ := ih.mp hmem
          exact ⟨⟨rfl, rfl⟩, hd, hall⟩
        · rintro ⟨⟨rfl, happend⟩, -, hall⟩
          exact ⟨(w, ys), ih.mpr ⟨happend, hall⟩, rfl, rfl⟩
      · next hd =>
        simp only [List.mem_singleton, Prod.mk.injEq, reduceCtorEq, false_and, false_iff, not_and]
        rintro ⟨rfl, -⟩ hc
        exact absurd hc hd

/-- **The ways to match are the words of the language.** -/
theorem mem_splits_iff : (w, ys) ∈ r.splits xs ↔ w ++ ys = xs ∧ r.Matches w := by
  induction r generalizing w ys xs with
  | empty =>
    rw [splits, List.mem_singleton, Prod.mk.injEq, matches_empty]
    constructor
    · rintro ⟨rfl, rfl⟩
      exact ⟨rfl, rfl⟩
    · rintro ⟨rfl, rfl⟩
      exact ⟨rfl, rfl⟩
  | one accepts =>
    rw [matches_one]
    cases xs with
    | nil =>
      refine iff_of_false List.not_mem_nil ?_
      rintro ⟨happend, c, -, rfl⟩
      cases happend
    | cons d xs =>
      rw [splits_one_cons]
      constructor
      · intro hmem
        split at hmem
        · next hd =>
          obtain ⟨rfl, rfl⟩ := Prod.mk.inj (List.mem_singleton.mp hmem)
          exact ⟨rfl, d, hd, rfl⟩
        · cases hmem
      · rintro ⟨happend, c, hc, rfl⟩
        obtain ⟨rfl, rfl⟩ := List.cons.inj happend
        rw [if_pos hc]
        exact List.mem_singleton_self _
  | many accepts => rw [splits_many, mem_runs_iff, matches_many]
  | seq first second ihfirst ihsecond =>
    simp only [splits, List.mem_flatMap, List.mem_map, Prod.mk.injEq, matches_seq]
    constructor
    · rintro ⟨⟨u, rest⟩, hu, ⟨v, _⟩, hv, rfl, rfl⟩
      obtain ⟨rfl, hfirst⟩ := ihfirst.mp hu
      obtain ⟨hrest, hsecond⟩ := ihsecond.mp hv
      exact ⟨by rw [List.append_assoc, hrest], u, v, rfl, hfirst, hsecond⟩
    · rintro ⟨rfl, u, v, rfl, hu, hv⟩
      exact ⟨(u, v ++ ys), ihfirst.mpr ⟨(List.append_assoc u v ys).symm, hu⟩, (v, ys),
        ihsecond.mpr ⟨rfl, hv⟩, rfl, rfl⟩
  | alt first second ihfirst ihsecond =>
    rw [splits, List.mem_append, ihfirst, ihsecond, matches_alt, and_or_left]

/-! ### Patterns that agree on a text -/

/-- Two patterns match alike in a text. -/
def AgreeOn (r r' : Pattern α) (xs : List α) : Prop :=
  ∀ ys, ys <:+ xs → r.splits ys = r'.splits ys

theorem suffix_of_mem_splits (h : (w, ys) ∈ r.splits xs) : ys <:+ xs :=
  ⟨w, (mem_splits_iff.mp h).1⟩

theorem AgreeOn.refl (r : Pattern α) (xs : List α) : r.AgreeOn r xs := fun _ _ => rfl

theorem AgreeOn.seq {first' second' : Pattern α} (hfirst : first.AgreeOn first' xs)
    (hsecond : second.AgreeOn second' xs) :
    (Pattern.seq first second).AgreeOn (.seq first' second') xs := by
  intro ys hys
  rw [splits_seq, splits_seq, hfirst ys hys]
  refine List.flatMap_congr fun split hsplit => ?_
  rw [hsecond split.2 ((suffix_of_mem_splits hsplit).trans hys)]

theorem AgreeOn.times {r' : Pattern α} (h : r.AgreeOn r' xs) (count : ℕ) :
    (r.times count).AgreeOn (r'.times count) xs := by
  induction count with
  | zero => exact .refl .empty xs
  | succ count ih => exact .seq h ih

theorem agreeOn_one {accepts' : α → Bool} (h : ∀ c ∈ xs, accepts c = accepts' c) :
    (one accepts).AgreeOn (one accepts') xs := by
  intro ys hys
  cases ys with
  | nil => rfl
  | cons c ys => rw [splits_one_cons, splits_one_cons, h c (hys.subset List.mem_cons_self)]

theorem agreeOn_many {accepts' : α → Bool} (h : ∀ c ∈ xs, accepts c = accepts' c) :
    (many accepts).AgreeOn (many accepts') xs := by
  intro ys
  induction ys with
  | nil => exact fun _ => rfl
  | cons c ys ih =>
    intro hys
    have hrest : runs accepts ys = runs accepts' ys := ih ((List.suffix_cons c ys).trans hys)
    rw [splits_many, splits_many, runs_cons, runs_cons, h c (hys.subset List.mem_cons_self), hrest]

theorem agreeOn_atLeast {accepts' : α → Bool} (count : ℕ)
    (h : ∀ c ∈ xs, accepts c = accepts' c) :
    (atLeast count accepts).AgreeOn (atLeast count accepts') xs :=
  .seq (.times (agreeOn_one h) count) (agreeOn_many h)

/-! ### Leftmost matches -/

theorem findFrom_skip (r : Pattern α) (w ys : List α) : ∀ position,
    r.findFrom w.length position (w ++ ys) = r.findFrom 0 (position + w.length) ys := by
  induction w with
  | nil => exact fun _ => rfl
  | cons c w ih =>
    intro position
    have hposition : position + (c :: w).length = position + 1 + w.length := by
      rw [List.length_cons]
      omega
    rw [hposition, ← ih (position + 1)]
    rfl

theorem findFrom_of_none {c : α} (h : (r.splits (c :: xs)).head? = none) (position : ℕ) :
    r.findFrom 0 position (c :: xs) = r.findFrom 0 (position + 1) xs := by
  rw [findFrom, h]

theorem findFrom_of_some (hw : w ≠ []) (h : (r.splits (w ++ ys)).head? = some (w, ys))
    (position : ℕ) : r.findFrom 0 position (w ++ ys) =
      (position, position + w.length) :: r.findFrom 0 (position + w.length) ys := by
  cases w with
  | nil => exact absurd rfl hw
  | cons c w =>
    have hposition : position + (c :: w).length = position + 1 + w.length := by
      rw [List.length_cons]
      omega
    rw [List.cons_append] at h
    rw [List.cons_append, findFrom, h]
    simp only [if_neg hw]
    rw [hposition, ← findFrom_skip]
    rfl

/-! ### Greedy patterns -/

/-- The first way to match leaves no character of a class behind. -/
def Greedy (r : Pattern α) (accepts : α → Bool) : Prop :=
  ∀ xs w ys, (r.splits xs).head? = some (w, ys) → ∀ c ∈ ys.head?, ¬ accepts c

theorem greedy_many (accepts : α → Bool) : (many accepts).Greedy accepts := by
  intro xs
  induction xs with
  | nil =>
    intro w ys hhead c hc
    obtain ⟨-, rfl⟩ := Prod.mk.inj (Option.some.inj hhead)
    cases hc
  | cons d xs ih =>
    intro w ys hhead c hc
    rw [splits_many, runs_cons] at hhead
    split at hhead
    · -- the run goes on with the rest of the text
      rw [List.head?_append, List.head?_map] at hhead
      cases hrun : (runs accepts xs).head? with
      | none =>
        exact absurd (mem_runs_iff.mpr ⟨rfl, fun c hc => absurd hc List.not_mem_nil⟩ :
          (([], xs) : List α × List α) ∈ runs accepts xs)
          (List.head?_eq_none_iff.mp hrun ▸ List.not_mem_nil)
      | some split =>
        rw [hrun] at hhead
        obtain ⟨-, rfl⟩ := Prod.mk.inj (Option.some.inj hhead)
        exact ih split.1 split.2 hrun c hc
    · next hd =>
      obtain ⟨-, rfl⟩ := Prod.mk.inj (Option.some.inj hhead)
      obtain rfl := Option.some.inj hc
      exact hd

/-- A sequence is as greedy as its last part. -/
theorem Greedy.seq (first : Pattern α) (h : second.Greedy accepts) :
    (Pattern.seq first second).Greedy accepts := by
  intro xs w ys hhead
  rw [splits_seq] at hhead
  generalize first.splits xs = before at hhead
  induction before with
  | nil => cases hhead
  | cons split before ih =>
    rw [List.flatMap_cons, List.head?_append, List.head?_map] at hhead
    cases hnext : (second.splits split.2).head? with
    | none =>
      rw [hnext] at hhead
      exact ih hhead
    | some next =>
      rw [hnext] at hhead
      obtain ⟨-, rfl⟩ := Prod.mk.inj (Option.some.inj hhead)
      exact h split.2 next.1 next.2 hnext

theorem greedy_atLeast (count : ℕ) (accepts : α → Bool) :
    (atLeast count accepts).Greedy accepts := .seq _ (greedy_many accepts)

end Pattern
