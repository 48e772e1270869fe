import Mathlib.Logic.Basic

/-!
# Programs that can be cut off

A program reads its state, replaces it in single atomic steps, and ends with a
value or an error. Cut off anywhere, it leaves a state between two of its steps
(`Program.Cut`).

`Program.Holds crash p post s` is what a proof runs: from `s`, the program ends
with a result and a state that satisfy `post`, and wherever it is cut off the state
satisfies `crash` (`holds_iff`). It is computed along the program, step by step,
and through sequences and loops by `holds_bind` and `holds_forM`.
-/

namespace Crash

variable {σ τ ε δ α β : Type}

/-- A program over a state `σ` that ends with an `α` or an error. -/
inductive Program (σ ε α : Type) where
  | done (result : Except ε α)
  | read (next : σ → Program σ ε α)
  | write (update : σ → σ) (next : Program σ ε α)

namespace Program

protected def bind : Program σ ε α → (α → Program σ ε β) → Program σ ε β
  | .done (.ok a), k => k a
  | .done (.error e), _ => .done (.error e)
  | .read next, k => .read fun s => (next s).bind k
  | .write update next, k => .write update (next.bind k)

instance : Monad (Program σ ε) where
  pure a := .done (.ok a)
  bind := Program.bind

/-- The state as it is. -/
def get : Program σ ε σ := .read fun s => .done (.ok s)

/-- One atomic step. -/
def modify (update : σ → σ) : Program σ ε Unit := .write update (.done (.ok ()))

def throw (e : ε) : Program σ ε α := .done (.error e)

/-- The program with another type of errors. -/
def mapError (f : ε → δ) : Program σ ε α → Program σ δ α
  | .done result => .done (result.mapError f)
  | .read next => .read fun s => (next s).mapError f
  | .write update next => .write update (next.mapError f)

/-- The program with its errors turned into values. -/
def attempt : Program σ ε α → Program σ δ (Except ε α)
  | .done result => .done (.ok result)
  | .read next => .read fun s => (next s).attempt
  | .write update next => .write update next.attempt

/-- The result and the final state of a run that is not cut off. -/
def run : Program σ ε α → σ → Except ε α × σ
  | .done result, s => (result, s)
  | .read next, s => (next s).run s
  | .write update next, s => next.run (update s)

/-- A run from the first state can be cut off in the second. -/
inductive Cut : Program σ ε α → σ → σ → Prop where
  | here (p : Program σ ε α) (s : σ) : Cut p s s
  | read {next : σ → Program σ ε α} {s s' : σ} (h : Cut (next s) s s') : Cut (.read next) s s'
  | write {update : σ → σ} {next : Program σ ε α} {s s' : σ} (h : Cut next (update s) s') :
      Cut (.write update next) s s'

/-- The end of a run is one of the states it can be cut off in. -/
theorem cut_run (p : Program σ ε α) (s : σ) : p.Cut s (p.run s).2 := by
  induction p generalizing s with
  | done result => exact .here _ s
  | read next ih => exact .read (ih s s)
  | write update next ih => exact .write (ih (update s))

/-- The program ends in `post`, and is cut off in `crash`. -/
def Holds (crash : σ → Prop) : Program σ ε α → (Except ε α → σ → Prop) → σ → Prop
  | .done result, post, s => crash s ∧ post result s
  | .read next, post, s => (next s).Holds crash post s
  | .write update next, post, s => crash s ∧ next.Holds crash post (update s)

variable {crash : σ → Prop} {post : Except ε α → σ → Prop} {s s' : σ}

theorem Holds.crash_start {p : Program σ ε α} (h : p.Holds crash post s) : crash s := by
  induction p with
  | done result => exact h.1
  | read next ih => exact ih s h
  | write update next ih => exact h.1

/-- **What a proof about a program says.** -/
theorem holds_iff {p : Program σ ε α} :
    p.Holds crash post s ↔
      post (p.run s).1 (p.run s).2 ∧ ∀ s', p.Cut s s' → crash s' := by
  induction p generalizing s with
  | done result =>
    refine ⟨fun ⟨hcrash, hpost⟩ => ⟨hpost, fun s' hcut => ?_⟩, fun ⟨hpost, hcut⟩ =>
      ⟨hcut s (.here _ s), hpost⟩⟩
    cases hcut
    exact hcrash
  | read next ih =>
    refine (ih s).trans (and_congr_right fun _ => ⟨fun h s' hcut => ?_, fun h s' hcut =>
      h s' (.read hcut)⟩)
    cases hcut with
    | here => exact h s (.here _ s)
    | read hcut => exact h s' hcut
  | write update next ih =>
    refine ⟨fun ⟨hcrash, hnext⟩ => ⟨(ih.mp hnext).1, fun s' hcut => ?_⟩, fun ⟨hpost, hcut⟩ =>
      ⟨hcut s (.here _ s), ih.mpr ⟨hpost, fun s' hcut' => hcut s' (.write hcut')⟩⟩⟩
    cases hcut with
    | here => exact hcrash
    | write hcut => exact (ih.mp hnext).2 s' hcut

theorem Holds.imp {crash' : σ → Prop} {post' : Except ε α → σ → Prop} {p : Program σ ε α}
    (h : p.Holds crash post s) (hcrash : ∀ s, crash s → crash' s)
    (hpost : ∀ r s, post r s → post' r s) : p.Holds crash' post' s :=
  holds_iff.mpr ⟨hpost _ _ (holds_iff.mp h).1, fun s' hcut => hcrash s' ((holds_iff.mp h).2 s' hcut)⟩

/-! ### The rules -/

@[simp] theorem holds_pure {a : α} :
    (pure a : Program σ ε α).Holds crash post s ↔ crash s ∧ post (.ok a) s := Iff.rfl

@[simp] theorem holds_throw {e : ε} :
    (throw e : Program σ ε α).Holds crash post s ↔ crash s ∧ post (.error e) s := Iff.rfl

/-- What comes after a step: the rest of the program, or its error. -/
def after (crash : σ → Prop) (k : α → Program σ ε β) (post : Except ε β → σ → Prop) :
    Except ε α → σ → Prop
  | .ok a, s => (k a).Holds crash post s
  | .error e, s => post (.error e) s

theorem holds_bind {p : Program σ ε α} {k : α → Program σ ε β} {post : Except ε β → σ → Prop} :
    (p >>= k).Holds crash post s ↔ p.Holds crash (after crash k post) s := by
  induction p generalizing s with
  | done result =>
    cases result with
    | ok a => exact ⟨fun h => ⟨h.crash_start, h⟩, fun h => h.2⟩
    | error e => exact Iff.rfl
  | read next ih => exact ih s
  | write update next ih => exact and_congr_right fun _ => ih

@[simp] theorem holds_get_bind {k : σ → Program σ ε α} :
    ((get : Program σ ε σ) >>= k).Holds crash post s ↔ (k s).Holds crash post s := Iff.rfl

@[simp] theorem holds_modify_bind {update : σ → σ} {k : Unit → Program σ ε α} :
    (modify update >>= k).Holds crash post s ↔
      crash s ∧ (k ()).Holds crash post (update s) := Iff.rfl

@[simp] theorem holds_pure_bind {a : α} {k : α → Program σ ε β}
    {post : Except ε β → σ → Prop} :
    ((pure a : Program σ ε α) >>= k).Holds crash post s ↔ (k a).Holds crash post s := Iff.rfl

@[simp] theorem holds_throw_bind {e : ε} {k : α → Program σ ε β}
    {post : Except ε β → σ → Prop} :
    ((throw e : Program σ ε α) >>= k).Holds crash post s ↔ crash s ∧ post (.error e) s := Iff.rfl

/-- A step that only computes goes on with its value or ends with its error. -/
theorem holds_result_bind {result : Except ε α} {k : α → Program σ ε β}
    {post : Except ε β → σ → Prop} (hcrash : crash s)
    (herror : ∀ e, result = .error e → post (.error e) s)
    (hok : ∀ a, result = .ok a → (k a).Holds crash post s) :
    ((.done result : Program σ ε α) >>= k).Holds crash post s := by
  cases result with
  | ok a => exact hok a rfl
  | error e => exact ⟨hcrash, herror e rfl⟩

theorem holds_map {f : α → β} {p : Program σ ε α} {post : Except ε β → σ → Prop} :
    (f <$> p).Holds crash post s ↔ p.Holds crash (fun r s => post (f <$> r) s) s := by
  induction p generalizing s with
  | done result => cases result <;> exact Iff.rfl
  | read next ih => exact ih s
  | write update next ih => exact and_congr_right fun _ => ih

theorem holds_mapError {f : ε → δ} {p : Program σ ε α} {post : Except δ α → σ → Prop} :
    (p.mapError f).Holds crash post s ↔ p.Holds crash (fun r s => post (r.mapError f) s) s := by
  induction p generalizing s with
  | done result => exact Iff.rfl
  | read next ih => exact ih s
  | write update next ih => exact and_congr_right fun _ => ih

theorem holds_attempt {p : Program σ ε α} {post : Except δ (Except ε α) → σ → Prop} :
    (p.attempt : Program σ δ (Except ε α)).Holds crash post s ↔
      p.Holds crash (fun r s => post (.ok r) s) s := by
  induction p generalizing s with
  | done result => exact Iff.rfl
  | read next ih => exact ih s
  | write update next ih => exact and_congr_right fun _ => ih

/-- A loop whose every turn keeps an invariant of the turns so far. -/
theorem holds_forM {f : α → Program σ ε Unit} {inv : List α → σ → Prop} {xs : List α}
    (hturn : ∀ done x rest s, done ++ x :: rest = xs → inv done s →
      (f x).Holds crash (fun r s => r = .ok () ∧ inv (done ++ [x]) s) s)
    (hcrash : ∀ s, inv xs s → crash s) (h : inv [] s) :
    (forM xs f : Program σ ε Unit).Holds crash (fun r s => r = .ok () ∧ inv xs s) s := by
  suffices hloop : ∀ done rest s, done ++ rest = xs → inv done s →
      (forM rest f : Program σ ε Unit).Holds crash (fun r s => r = .ok () ∧ inv xs s) s from
    hloop [] xs s rfl h
  intro done rest
  induction rest generalizing done with
  | nil =>
    intro s hdone hinv
    obtain rfl : done = xs := by rw [← hdone, List.append_nil]
    exact ⟨hcrash s hinv, rfl, hinv⟩
  | cons x rest ih =>
    intro s hdone hinv
    refine holds_bind.mpr ((hturn done x rest s hdone hinv).imp (fun _ => id) ?_)
    rintro r s' ⟨rfl, hinv'⟩
    exact ih (done ++ [x]) s' (by rw [List.append_assoc]; exact hdone) hinv'

/-! ### Runs to the end -/

theorem run_bind (p : Program σ ε α) (k : α → Program σ ε β) (s : σ) :
    (p >>= k).run s = match p.run s with
      | (.ok a, s') => (k a).run s'
      | (.error e, s') => (.error e, s') := by
  induction p generalizing s with
  | done result => cases result <;> rfl
  | read next ih => exact ih s s
  | write update next ih => exact ih (update s)

theorem run_mapError (f : ε → δ) (p : Program σ ε α) (s : σ) :
    (p.mapError f).run s = ((p.run s).1.mapError f, (p.run s).2) := by
  induction p generalizing s with
  | done result => rfl
  | read next ih => exact ih s s
  | write update next ih => exact ih (update s)

/-! ### Programs that keep an invariant -/

/-- From every state of the invariant, each state the program can be cut off in has it. -/
def Preserves (inv : σ → Prop) (p : Program σ ε α) : Prop :=
  ∀ s, inv s → p.Holds inv (fun _ => inv) s

variable {inv : σ → Prop}

theorem Preserves.of_cut {p : Program σ ε α} (h : p.Preserves inv) (hs : inv s)
    (hcut : p.Cut s s') : inv s' :=
  (holds_iff.mp (h s hs)).2 s' hcut

theorem preserves_pure (a : α) : (pure a : Program σ ε α).Preserves inv :=
  fun _ hs => ⟨hs, hs⟩

theorem preserves_throw (e : ε) : (throw e : Program σ ε α).Preserves inv :=
  fun _ hs => ⟨hs, hs⟩

theorem Preserves.bind {p : Program σ ε α} {k : α → Program σ ε β} (hp : p.Preserves inv)
    (hk : ∀ a, (k a).Preserves inv) : (p >>= k).Preserves inv := by
  intro s hs
  refine holds_bind.mpr ((hp s hs).imp (fun _ => id) fun result s' hs' => ?_)
  cases result with
  | ok a => exact hk a s' hs'
  | error e => exact hs'

/-- What follows a read is judged in the state that was read. -/
theorem preserves_get_bind {k : σ → Program σ ε α}
    (hk : ∀ s, inv s → (k s).Holds inv (fun _ => inv) s) : (get >>= k).Preserves inv :=
  hk

theorem Preserves.mapError {p : Program σ ε α} (f : ε → δ) (hp : p.Preserves inv) :
    (p.mapError f).Preserves inv :=
  fun s hs => holds_mapError.mpr (hp s hs)

end Program

/-! ### A part of the state -/

/-- A part of a state that can be read and replaced. -/
structure Lens (τ σ : Type) where
  get : τ → σ
  set : τ → σ → τ
  get_set : ∀ t s, get (set t s) = s
  set_get : ∀ t, set t (get t) = t
  set_set : ∀ t s s', set (set t s) s' = set t s'

/-- A program over the part, as a program over the whole state. -/
def Program.focus (lens : Lens τ σ) : Program σ ε α → Program τ ε α
  | .done result => .done result
  | .read next => .read fun t => (next (lens.get t)).focus lens
  | .write update next => .write (fun t => lens.set t (update (lens.get t))) (next.focus lens)

/-- A program over the part is run on it, the rest of the state staying as it is. -/
theorem Program.holds_focus {lens : Lens τ σ} {p : Program σ ε α} {crash : τ → Prop}
    {post : Except ε α → τ → Prop} {t : τ} :
    (p.focus lens).Holds crash post t ↔
      p.Holds (fun s => crash (lens.set t s)) (fun r s => post r (lens.set t s))
        (lens.get t) := by
  suffices h : ∀ s, (p.focus lens).Holds crash post (lens.set t s) ↔
      p.Holds (fun s => crash (lens.set t s)) (fun r s => post r (lens.set t s)) s by
    rw [← h, lens.set_get]
  intro s
  induction p generalizing s with
  | done result => exact Iff.rfl
  | read next ih =>
    show ((next (lens.get (lens.set t s))).focus lens).Holds crash post (lens.set t s) ↔ _
    rw [lens.get_set]
    exact ih s s
  | write update next ih =>
    show _ ∧ (next.focus lens).Holds crash post
      (lens.set (lens.set t s) (update (lens.get (lens.set t s)))) ↔ _
    rw [lens.get_set, lens.set_set]
    exact and_congr_right fun _ => ih (update s)

theorem Program.run_focus (lens : Lens τ σ) (p : Program σ ε α) (t : τ) :
    (p.focus lens).run t =
      ((p.run (lens.get t)).1, lens.set t (p.run (lens.get t)).2) := by
  induction p generalizing t with
  | done result =>
    show (result, t) = (result, lens.set t (lens.get t))
    rw [lens.set_get]
  | read next ih => exact ih (lens.get t) t
  | write update next ih =>
    show (next.focus lens).run (lens.set t (update (lens.get t))) = _
    rw [ih, lens.get_set, lens.set_set]
    rfl

theorem Program.Preserves.focus {lens : Lens τ σ} {p : Program σ ε α} {inv : τ → Prop}
    (hp : ∀ t, inv t → p.Preserves fun s => inv (lens.set t s)) :
    (p.focus lens).Preserves inv := by
  intro t ht
  refine Program.holds_focus.mpr (hp t ht (lens.get t) ?_)
  show inv (lens.set t (lens.get t))
  rw [lens.set_get]
  exact ht

end Crash
