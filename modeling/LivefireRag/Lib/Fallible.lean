import Mathlib.Algebra.GroupWithZero.Nat
import Mathlib.Data.List.Basic
import Mathlib.Data.List.Forall2

/-!
# Fallible computations

Inversion and progress rules for `Except ε`, the monad every validator and
writer of the development runs in.

A validator is a sequence of guards (`throwIf`), option reads (`orThrow`) and
loops. Acceptance is read off by rewriting: `bind_eq_ok` opens a sequence (with
`exists_unit` for the steps that return nothing), `throwIf_eq_ok` and
`orThrow_eq_ok` open its members, `forM_eq_ok` and `mapM_eq_ok` its loops.

A loop that carries state is a `List.foldlM`. It has two rules, in the two
directions a proof can run, and a third for a loop of either outcome:

* `foldlM_invariant` — if the loop returned, an invariant indexed by the
  consumed prefix holds of the state it returned;
* `foldlM_total` — if the invariant lets every step go through, the loop
  returns, and returns a state that satisfies it;
* `foldlM_cases` — if every step goes through or fails by what its element is, so
  does the loop.
-/

namespace Fallible

variable {ε α β σ : Type}

/-- Fail with `e` when `c` holds. -/
def throwIf (c : Prop) [Decidable c] (e : ε) : Except ε Unit :=
  if c then .error e else .ok ()

/-- Read an option, failing with `e` when it is empty. -/
def orThrow (o : Option α) (e : ε) : Except ε α :=
  match o with
  | some a => .ok a
  | none => .error e

/-- Read a fallible result, replacing whatever error it carries by `e`. -/
def orThrowAs {ε' : Type} (x : Except ε' α) (e : ε) : Except ε α :=
  match x with
  | .ok a => .ok a
  | .error _ => .error e

/-! ### Inversion of the single steps -/

@[simp] theorem throwIf_eq_ok {c : Prop} [Decidable c] {e : ε} {u : Unit} :
    throwIf c e = .ok u ↔ ¬ c := by
  unfold throwIf
  split <;> simp_all

theorem mapError_eq_ok {ε δ α : Type} {f : ε → δ} {x : Except ε α} {a : α} :
    x.mapError f = .ok a ↔ x = .ok a := by
  cases x with
  | ok b => simp [Except.mapError]
  | error e => simp [Except.mapError]

theorem map_eq_ok {ε α β : Type} {f : α → β} {x : Except ε α} {b : β} :
    f <$> x = .ok b ↔ ∃ a, x = .ok a ∧ f a = b := by
  cases x with
  | ok a => exact ⟨fun h => ⟨a, rfl, Except.ok.inj h⟩, fun ⟨_, h, hb⟩ => by cases h; exact congrArg _ hb⟩
  | error e => exact ⟨nofun, fun ⟨_, h, _⟩ => nomatch h⟩

theorem isOk_iff {ε α : Type} {x : Except ε α} : x.isOk = true ↔ ∃ a, x = .ok a := by
  cases x with
  | ok a => exact iff_of_true rfl ⟨a, rfl⟩
  | error e => exact iff_of_false nofun nofun

@[simp] theorem orThrow_eq_ok {o : Option α} {e : ε} {a : α} :
    orThrow o e = .ok a ↔ o = some a := by
  cases o <;> simp [orThrow]

theorem throwIf_eq_error {c : Prop} [Decidable c] {e e' : ε} :
    throwIf c e = .error e' ↔ c ∧ e = e' := by
  unfold throwIf
  split <;> simp_all

theorem orThrow_eq_error {o : Option α} {e e' : ε} :
    orThrow o e = .error e' ↔ o = none ∧ e = e' := by
  cases o <;> simp [orThrow]

@[simp] theorem orThrowAs_eq_ok {ε' : Type} {x : Except ε' α} {e : ε} {a : α} :
    orThrowAs x e = .ok a ↔ x = .ok a := by
  cases x <;> simp [orThrowAs]

theorem bind_eq_ok {x : Except ε α} {f : α → Except ε β} {b : β} :
    x >>= f = .ok b ↔ ∃ a, x = .ok a ∧ f a = .ok b := by
  cases x with
  | error e => simp [bind, Except.bind]
  | ok a => simp [bind, Except.bind]

/-- The value of a step that is run for its failure alone carries nothing. -/
theorem exists_unit {p : Unit → Prop} : (∃ u, p u) ↔ p () :=
  ⟨fun ⟨_, h⟩ => h, fun h => ⟨(), h⟩⟩

@[simp] theorem ok_bind (a : α) (f : α → Except ε β) : (Except.ok a >>= f) = f a := rfl

@[simp] theorem pure_eq_ok {a b : α} : (pure a : Except ε α) = .ok b ↔ a = b := by
  simp [pure, Except.pure]

/-- A guard that passes disappears from the sequence it stands in. -/
theorem throwIf_bind_of_not {c : Prop} [Decidable c] {e : ε} {f : Unit → Except ε β}
    (h : ¬ c) : (throwIf c e >>= f) = f () := by
  rw [throwIf, if_neg h]
  rfl

/-! ### Loops without state -/

theorem forM_eq_ok {f : α → Except ε Unit} {xs : List α} {u : Unit} :
    forM xs f = .ok u ↔ ∀ x ∈ xs, f x = .ok () := by
  induction xs with
  | nil => simp
  | cons x xs ih =>
    rw [List.forM_cons, bind_eq_ok, List.forall_mem_cons, ← ih]
    exact ⟨fun ⟨_, hx, hs⟩ => ⟨hx, hs⟩, fun ⟨hx, hs⟩ => ⟨(), hx, hs⟩⟩

theorem mapM_eq_ok {f : α → Except ε β} {xs : List α} {ys : List β} :
    xs.mapM f = .ok ys ↔ List.Forall₂ (fun x y => f x = .ok y) xs ys := by
  induction xs generalizing ys with
  | nil => simp [pure, Except.pure, eq_comm]
  | cons x xs ih =>
    rw [List.mapM_cons, bind_eq_ok]
    constructor
    · rintro ⟨y, hy, h⟩
      obtain ⟨zs, hzs, h⟩ := bind_eq_ok.mp h
      obtain rfl := pure_eq_ok.mp h
      exact List.Forall₂.cons hy (ih.mp hzs)
    · intro h
      obtain ⟨y, zs, hy, hzs, rfl⟩ := List.forall₂_cons_left_iff.mp h
      exact ⟨y, hy, bind_eq_ok.mpr ⟨zs, ih.mpr hzs, rfl⟩⟩

/-- A map whose successes are the values of a function returns these values. -/
theorem eq_map_of_mapM {f : α → Except ε β} {g : α → β} {xs : List α} {ys : List β}
    (h : xs.mapM f = .ok ys) (hf : ∀ x ∈ xs, ∀ y, f x = .ok y → y = g x) : ys = xs.map g := by
  rw [mapM_eq_ok] at h
  induction h with
  | nil => rfl
  | cons hfirst _ ih =>
    rw [List.forall_mem_cons] at hf
    rw [List.map_cons, hf.1 _ hfirst, ih hf.2]

/-- What a map returns comes from its elements. -/
theorem exists_of_mem_mapM {f : α → Except ε β} {xs : List α} {ys : List β}
    (h : xs.mapM f = .ok ys) {y : β} (hy : y ∈ ys) : ∃ x ∈ xs, f x = .ok y := by
  rw [mapM_eq_ok] at h
  induction h with
  | nil => cases hy
  | cons hfirst _ ih =>
    obtain rfl | hy := List.mem_cons.mp hy
    · exact ⟨_, List.mem_cons_self .., hfirst⟩
    · exact (ih hy).imp fun _ hx => hx.imp_left (List.mem_cons_of_mem _)

/-- Every element of a map is in what it returns. -/
theorem exists_mem_of_mapM {f : α → Except ε β} {xs : List α} {ys : List β}
    (h : xs.mapM f = .ok ys) {x : α} (hx : x ∈ xs) : ∃ y ∈ ys, f x = .ok y := by
  rw [mapM_eq_ok] at h
  induction h with
  | nil => cases hx
  | cons hfirst _ ih =>
    obtain rfl | hx := List.mem_cons.mp hx
    · exact ⟨_, List.mem_cons_self .., hfirst⟩
    · exact (ih hx).imp fun _ hy => hy.imp_left (List.mem_cons_of_mem _)

/-- A loop whose steps are known. -/
theorem mapM_eq_map {f : α → Except ε β} {g : α → β} {xs : List α}
    (h : ∀ x ∈ xs, f x = .ok (g x)) : xs.mapM f = .ok (xs.map g) :=
  mapM_eq_ok.mpr (List.forall₂_map_right_iff.mpr (List.forall₂_same.mpr h))

/-- A map whose every element succeeds succeeds, element by element. -/
theorem mapM_total {f : α → Except ε β} {R : α → β → Prop} {xs : List α}
    (h : ∀ x ∈ xs, ∃ y, f x = .ok y ∧ R x y) :
    ∃ ys, xs.mapM f = .ok ys ∧ List.Forall₂ R xs ys := by
  induction xs with
  | nil => exact ⟨[], rfl, .nil⟩
  | cons x xs ih =>
    obtain ⟨y, hy, hxy⟩ := h x (List.mem_cons_self ..)
    obtain ⟨ys, hys, hrel⟩ := ih fun z hz => h z (List.mem_cons_of_mem _ hz)
    exact ⟨y :: ys, mapM_eq_ok.mpr (.cons hy (mapM_eq_ok.mp hys)), .cons hxy hrel⟩

/-- A map succeeds when it does on every element. -/
theorem exists_mapM_eq_ok {f : α → Except ε β} {xs : List α} :
    (∃ ys, xs.mapM f = .ok ys) ↔ ∀ x ∈ xs, ∃ y, f x = .ok y := by
  constructor
  · rintro ⟨ys, hys⟩
    rw [mapM_eq_ok] at hys
    induction hys with
    | nil => simp
    | cons hy _ ih => exact List.forall_mem_cons.mpr ⟨⟨_, hy⟩, ih⟩
  · intro h
    obtain ⟨ys, hys, -⟩ := mapM_total (R := fun _ _ => True) fun x hx =>
      (h x hx).imp fun _ hy => ⟨hy, trivial⟩
    exact ⟨ys, hys⟩

theorem mapM_perm {f : α → Except ε β} {xs xs' : List α} (h : xs.Perm xs')
    {ys : List β} (hys : xs.mapM f = .ok ys) : ∃ ys', xs'.mapM f = .ok ys' ∧ ys.Perm ys' := by
  induction h generalizing ys with
  | nil => exact ⟨ys, hys, List.Perm.refl _⟩
  | cons x _ ih =>
    simp only [List.mapM_cons, bind_eq_ok, pure_eq_ok] at hys ⊢
    obtain ⟨y, hy, zs, hzs, rfl⟩ := hys
    obtain ⟨zs', hzs', hperm⟩ := ih hzs
    exact ⟨_, ⟨y, hy, zs', hzs', rfl⟩, hperm.cons y⟩
  | swap x x' xs =>
    simp only [List.mapM_cons, bind_eq_ok, pure_eq_ok] at hys ⊢
    obtain ⟨y', hy', _, ⟨y, hy, zs, hzs, rfl⟩, rfl⟩ := hys
    exact ⟨_, ⟨y, hy, _, ⟨y', hy', zs, hzs, rfl⟩, rfl⟩, List.Perm.swap ..⟩
  | trans _ _ ih ih' =>
    obtain ⟨ys', hys', hperm⟩ := ih hys
    obtain ⟨ys'', hys'', hperm'⟩ := ih' hys'
    exact ⟨ys'', hys'', hperm.trans hperm'⟩

theorem bind_eq_error {x : Except ε α} {f : α → Except ε β} {e : ε} :
    x >>= f = .error e ↔ x = .error e ∨ ∃ a, x = .ok a ∧ f a = .error e := by
  cases x with
  | error e' =>
    constructor
    · intro h
      exact .inl (congrArg Except.error (Except.error.inj h))
    · rintro (h | ⟨_, ha, _⟩)
      · exact congrArg Except.error (Except.error.inj h)
      · cases ha
  | ok a =>
    constructor
    · exact fun h => .inr ⟨a, rfl, h⟩
    · rintro (h | ⟨_, ha, h⟩)
      · cases h
      · cases ha
        exact h

/-- A loop over positions fails as its first failing position does. -/
theorem mapM_range_eq_error {f : ℕ → Except ε β} {n : ℕ} {e : ε} :
    (List.range n).mapM f = .error e ↔
      ∃ i < n, f i = .error e ∧ ∀ j < i, ∃ y, f j = .ok y := by
  induction n with
  | zero => exact iff_of_false nofun fun ⟨i, hi, _⟩ => absurd hi (Nat.not_lt_zero i)
  | succ n ih =>
    have hlast : [n].mapM f = .error e ↔ f n = .error e := by
      rw [List.mapM_cons, bind_eq_error]
      exact or_iff_left fun ⟨_, _, h⟩ => nomatch h
    have hstep : (List.range (n + 1)).mapM f = .error e ↔
        (List.range n).mapM f = .error e ∨
          (∃ ys, (List.range n).mapM f = .ok ys) ∧ f n = .error e := by
      rw [List.range_succ, List.mapM_append, bind_eq_error]
      refine or_congr_right ⟨?_, ?_⟩
      · rintro ⟨ys, hys, h⟩
        exact ⟨⟨ys, hys⟩, hlast.mp ((bind_eq_error.mp h).resolve_right fun ⟨_, _, h⟩ => nomatch h)⟩
      · rintro ⟨⟨ys, hys⟩, h⟩
        exact ⟨ys, hys, bind_eq_error.mpr (.inl (hlast.mpr h))⟩
    rw [hstep, ih, exists_mapM_eq_ok]
    simp only [List.mem_range]
    constructor
    · rintro (⟨i, hi, h⟩ | ⟨hall, h⟩)
      · exact ⟨i, by omega, h⟩
      · exact ⟨n, by omega, h, hall⟩
    · rintro ⟨i, hi, h, hbefore⟩
      rcases Nat.lt_succ_iff_lt_or_eq.mp hi with hi | rfl
      · exact .inl ⟨i, hi, h, hbefore⟩
      · exact .inr ⟨hbefore, h⟩

/-! ### Loops that carry state -/

/-- A loop whose steps all succeed is a pure fold. -/
theorem foldlM_eq_foldl {f : σ → α → Except ε σ} {g : σ → α → σ} {xs : List α} {s : σ}
    (h : ∀ x ∈ xs, ∀ s, f s x = .ok (g s x)) : xs.foldlM f s = .ok (xs.foldl g s) := by
  induction xs generalizing s with
  | nil => rfl
  | cons x xs ih =>
    rw [List.forall_mem_cons] at h
    rw [List.foldlM_cons, h.1 s, ok_bind, List.foldl_cons, ih h.2]

/-- **The invariant rule.** An invariant indexed by the consumed prefix, true
of the initial state and preserved by every successful step, holds of the
returned state and the whole list. -/
theorem foldlM_invariant {f : σ → α → Except ε σ} {P : List α → σ → Prop} {xs : List α}
    {s t : σ} (h0 : P [] s)
    (hstep : ∀ pre x post s t, xs = pre ++ x :: post → P pre s → f s x = .ok t →
      P (pre ++ [x]) t)
    (h : xs.foldlM f s = .ok t) : P xs t := by
  -- generalise over the prefix already consumed
  suffices H : ∀ (post pre : List α) (s : σ), xs = pre ++ post → P pre s →
      post.foldlM f s = .ok t → P xs t from H xs [] s rfl h0 h
  intro post
  induction post with
  | nil =>
    intro pre s hsplit hP hrun
    obtain rfl := pure_eq_ok.mp hrun
    rwa [hsplit, List.append_nil]
  | cons x post ih =>
    intro pre s hsplit hP hrun
    rw [List.foldlM_cons] at hrun
    obtain ⟨s', hs', hrun⟩ := bind_eq_ok.mp hrun
    exact ih (pre ++ [x]) s' (by simp [hsplit]) (hstep pre x post s s' hsplit hP hs') hrun

/-- **The progress rule.** If the invariant lets each step succeed into a state
that satisfies it again, the loop succeeds. -/
theorem foldlM_total {f : σ → α → Except ε σ} {P : List α → σ → Prop} {xs : List α} {s : σ}
    (h0 : P [] s)
    (hstep : ∀ pre x post s, xs = pre ++ x :: post → P pre s →
      ∃ t, f s x = .ok t ∧ P (pre ++ [x]) t) :
    ∃ t, xs.foldlM f s = .ok t ∧ P xs t := by
  suffices H : ∀ (post pre : List α) (s : σ), xs = pre ++ post → P pre s →
      ∃ t, post.foldlM f s = .ok t ∧ P xs t from H xs [] s rfl h0
  intro post
  induction post with
  | nil =>
    intro pre s hsplit hP
    exact ⟨s, rfl, by rwa [hsplit, List.append_nil]⟩
  | cons x post ih =>
    intro pre s hsplit hP
    obtain ⟨s', hs', hP'⟩ := hstep pre x post s hsplit hP
    obtain ⟨t, ht, hPt⟩ := ih (pre ++ [x]) s' (by simp [hsplit]) hP'
    exact ⟨t, by rw [List.foldlM_cons, hs', ok_bind]; exact ht, hPt⟩

/-! ### Loops over numbered elements -/

theorem zipIdx_split {xs : List α} {pre post : List (α × ℕ)} {x : α} {i : ℕ}
    (h : xs.zipIdx = pre ++ (x, i) :: post) :
    i = pre.length ∧ xs = pre.map Prod.fst ++ x :: post.map Prod.fst := by
  constructor
  · have hget : xs.zipIdx[pre.length]? = some (x, i) := by
      rw [h, List.getElem?_append_right (Nat.le_refl _), Nat.sub_self, List.getElem?_cons_zero]
    rw [List.getElem?_zipIdx, Option.map_eq_some_iff] at hget
    obtain ⟨y, -, heq⟩ := hget
    exact ((Prod.mk.inj heq).2.symm.trans (Nat.zero_add _))
  · have hfst := congrArg (List.map Prod.fst) h
    rwa [List.zipIdx_map_fst, List.map_append, List.map_cons] at hfst

/-- The invariant rule where the elements come with their positions. -/
theorem foldlM_zipIdx_invariant {f : σ → α × ℕ → Except ε σ} {P : List α → σ → Prop}
    {xs : List α} {s t : σ} (h0 : P [] s)
    (hstep : ∀ pre x post s t, xs = pre ++ x :: post → P pre s → f s (x, pre.length) = .ok t →
      P (pre ++ [x]) t)
    (h : xs.zipIdx.foldlM f s = .ok t) : P xs t := by
  have hrule := @foldlM_invariant _ _ _ f (fun pre => P (pre.map Prod.fst)) xs.zipIdx s t h0
    (fun pre x post s t hsplit hP hrun => by
      obtain ⟨x, i⟩ := x
      obtain ⟨rfl, hxs⟩ := zipIdx_split hsplit
      rw [List.map_append, List.map_singleton]
      exact hstep _ x _ s t hxs hP (by rwa [List.length_map])) h
  rwa [List.zipIdx_map_fst] at hrule

/-- The progress rule where the elements come with their positions. -/
theorem foldlM_zipIdx_total {f : σ → α × ℕ → Except ε σ} {P : List α → σ → Prop}
    {xs : List α} {s : σ} (h0 : P [] s)
    (hstep : ∀ pre x post s, xs = pre ++ x :: post → P pre s →
      ∃ t, f s (x, pre.length) = .ok t ∧ P (pre ++ [x]) t) :
    ∃ t, xs.zipIdx.foldlM f s = .ok t ∧ P xs t := by
  have hrule := @foldlM_total _ _ _ f (fun pre => P (pre.map Prod.fst)) xs.zipIdx s h0
    (fun pre x post s hsplit hP => by
      obtain ⟨x, i⟩ := x
      obtain ⟨rfl, hxs⟩ := zipIdx_split hsplit
      obtain ⟨t, ht, hPt⟩ := hstep _ x _ s hxs hP
      rw [List.length_map] at ht
      exact ⟨t, ht, by rwa [List.map_append, List.map_singleton]⟩)
  rwa [List.zipIdx_map_fst] at hrule

/-! ### Loops that may fail -/

/-- **The case rule.** When each step goes through for a good element and fails for
any other, the loop goes through when all elements are good and fails with such a
failure when one is not. -/
theorem foldlM_cases {f : σ → α → Except ε σ} {P : List α → σ → Prop} {good : α → Prop}
    {bad : ε → Prop} {xs : List α} {s : σ} (h0 : P [] s)
    (hgood : ∀ pre x post s, xs = pre ++ x :: post → P pre s → good x →
      ∃ t, f s x = .ok t ∧ P (pre ++ [x]) t)
    (hbad : ∀ pre x post s, xs = pre ++ x :: post → P pre s → ¬ good x →
      ∃ e, f s x = .error e ∧ bad e) :
    ((∀ x ∈ xs, good x) ∧ ∃ t, xs.foldlM f s = .ok t ∧ P xs t) ∨
      ((∃ x ∈ xs, ¬ good x) ∧ ∃ e, xs.foldlM f s = .error e ∧ bad e) := by
  suffices H : ∀ (post pre : List α) (s : σ), xs = pre ++ post → P pre s →
      ((∀ x ∈ post, good x) ∧ ∃ t, post.foldlM f s = .ok t ∧ P xs t) ∨
        ((∃ x ∈ post, ¬ good x) ∧ ∃ e, post.foldlM f s = .error e ∧ bad e) from H xs [] s rfl h0
  intro post
  induction post with
  | nil =>
    intro pre s hsplit hP
    exact .inl ⟨by simp, s, rfl, by rwa [hsplit, List.append_nil]⟩
  | cons x post ih =>
    intro pre s hsplit hP
    by_cases hx : good x
    · obtain ⟨t, ht, hPt⟩ := hgood pre x post s hsplit hP hx
      rw [List.foldlM_cons, ht, ok_bind]
      rcases ih (pre ++ [x]) t (by simp [hsplit]) hPt with ⟨hall, hrun⟩ | ⟨hone, hrun⟩
      · exact .inl ⟨List.forall_mem_cons.mpr ⟨hx, hall⟩, hrun⟩
      · exact .inr ⟨hone.imp fun y hy => ⟨List.mem_cons_of_mem _ hy.1, hy.2⟩, hrun⟩
    · obtain ⟨e, he, hbad⟩ := hbad pre x post s hsplit hP hx
      refine .inr ⟨⟨x, List.mem_cons_self, hx⟩, e, ?_, hbad⟩
      rw [List.foldlM_cons, he]
      rfl

/-! ### Loops that read -/

/-- Every element of a list is admitted by the elements before it. -/
def Grows (Q : List β → β → Prop) : List β → List β → Prop
  | _, [] => True
  | before, y :: ys => Q before y ∧ Grows Q (before ++ [y]) ys

/-- **The rule for loops that read.** Where a step goes through exactly for an element
that reads as something the elements before it admit, the loop goes through exactly for
a list that reads as a list of such elements; the state keeps track of what was read. -/
theorem foldlM_reads {f : σ → α → Except ε σ} {R : α → β → Prop} {Q : List β → β → Prop}
    {P : List β → σ → Prop}
    (hread : ∀ before s x t, P before s → f s x = .ok t →
      ∃ y, R x y ∧ Q before y ∧ P (before ++ [y]) t)
    (htotal : ∀ before s x y, P before s → R x y → Q before y →
      ∃ t, f s x = .ok t ∧ P (before ++ [y]) t)
    {xs : List α} {before : List β} {s : σ} (h0 : P before s) :
    (∀ t, xs.foldlM f s = .ok t →
        ∃ ys, List.Forall₂ R xs ys ∧ Grows Q before ys ∧ P (before ++ ys) t) ∧
      ∀ ys, List.Forall₂ R xs ys → Grows Q before ys →
        ∃ t, xs.foldlM f s = .ok t ∧ P (before ++ ys) t := by
  induction xs generalizing before s with
  | nil =>
    refine ⟨fun t ht => ⟨[], .nil, trivial, ?_⟩, fun ys hys _ => ⟨s, rfl, ?_⟩⟩
    · rw [List.foldlM_nil, pure_eq_ok] at ht
      rwa [List.append_nil, ← ht]
    · cases hys
      rwa [List.append_nil]
  | cons x xs ih =>
    refine ⟨fun t ht => ?_, fun ys hys hgrows => ?_⟩
    · rw [List.foldlM_cons, bind_eq_ok] at ht
      obtain ⟨next, hnext, hrest⟩ := ht
      obtain ⟨y, hy, hadmitted, hP⟩ := hread before s x next h0 hnext
      obtain ⟨ys, hys, hgrows, hPt⟩ := (ih hP).1 t hrest
      rw [List.append_assoc] at hPt
      exact ⟨y :: ys, .cons hy hys, ⟨hadmitted, hgrows⟩, hPt⟩
    · cases hys with
      | cons hy hys =>
        obtain ⟨next, hnext, hP⟩ := htotal before s x _ h0 hy hgrows.1
        obtain ⟨t, ht, hPt⟩ := (ih hP).2 _ hys hgrows.2
        rw [List.append_assoc] at hPt
        exact ⟨t, by rw [List.foldlM_cons, hnext, ok_bind, ht], hPt⟩

theorem grows_and {Q Q' : List β → β → Prop} {before ys : List β} :
    Grows (fun before y => Q before y ∧ Q' before y) before ys ↔
      Grows Q before ys ∧ Grows Q' before ys := by
  induction ys generalizing before with
  | nil => exact (and_iff_left trivial).symm
  | cons y ys ih =>
    rw [Grows, Grows, Grows, ih]
    exact and_and_and_comm

/-- Lists that stay within a limit. -/
theorem grows_length {limit : ℕ} {before ys : List β} (h : before.length ≤ limit) :
    Grows (fun before _ => before.length < limit) before ys ↔
      before.length + ys.length ≤ limit := by
  induction ys generalizing before with
  | nil => exact iff_of_true trivial h
  | cons y ys ih =>
    rw [Grows, List.length_cons]
    constructor
    · rintro ⟨hlt, hrest⟩
      have hnext : (before ++ [y]).length ≤ limit := by
        rw [List.length_append, List.length_singleton]
        omega
      have hle := (ih hnext).mp hrest
      rw [List.length_append, List.length_singleton] at hle
      omega
    · intro hle
      have hnext : (before ++ [y]).length + ys.length ≤ limit := by
        rw [List.length_append, List.length_singleton]
        omega
      exact ⟨by omega, (ih (Nat.le_trans (Nat.le_add_right _ _) hnext)).mpr hnext⟩

/-- Lists whose elements go with each one before them. -/
theorem grows_pairwise {C : β → β → Prop} {before ys : List β} (h : before.Pairwise C) :
    Grows (fun before y => ∀ other ∈ before, C other y) before ys ↔
      (before ++ ys).Pairwise C := by
  induction ys generalizing before with
  | nil => exact iff_of_true trivial (by rwa [List.append_nil])
  | cons y ys ih =>
    have hsplit : before ++ y :: ys = (before ++ [y]) ++ ys := by
      rw [List.append_assoc, List.singleton_append]
    rw [Grows, hsplit]
    constructor
    · rintro ⟨hy, hrest⟩
      refine (ih ?_).mp hrest
      exact List.pairwise_append.mpr ⟨h, List.pairwise_singleton _ _,
        fun other hother z hz => List.mem_singleton.mp hz ▸ hy other hother⟩
    · intro hall
      have hnext := (List.pairwise_append.mp hall).1
      exact ⟨fun other hother => (List.pairwise_append.mp hnext).2.2 other hother y
        (List.mem_singleton_self _), (ih hnext).mpr hall⟩

end Fallible
