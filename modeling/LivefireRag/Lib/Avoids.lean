import LivefireRag.Lib.Fallible

/-!
# Errors that never arise

`Avoids bad x` says that the computation `x` does not fail with `bad`. A sequence, a
loop or a guard avoids an error when its parts do.
-/

namespace Fallible

variable {ε α β σ : Type} {bad : ε}

/-- The computation does not fail with `bad`. -/
def Avoids (bad : ε) (x : Except ε α) : Prop := x ≠ .error bad

theorem avoids_ok (a : α) : Avoids bad (.ok a) := nofun

theorem avoids_pure (a : α) : Avoids bad (pure a) := nofun

theorem avoids_error {e : ε} (h : e ≠ bad) : Avoids bad (.error e : Except ε α) :=
  fun heq => h (Except.error.inj heq)

theorem avoids_throwIf {c : Prop} [Decidable c] {e : ε} (h : e ≠ bad) : Avoids bad (throwIf c e) := by
  unfold throwIf
  split
  · exact avoids_error h
  · exact avoids_ok ()

theorem avoids_orThrow {o : Option α} {e : ε} (h : e ≠ bad) : Avoids bad (orThrow o e) := by
  cases o
  · exact avoids_error h
  · exact avoids_ok _

theorem avoids_orThrowAs {ε' : Type} {x : Except ε' α} {e : ε} (h : e ≠ bad) :
    Avoids bad (orThrowAs x e) := by
  cases x
  · exact avoids_error h
  · exact avoids_ok _

/-- The continuation is only asked about the values the first part returns. -/
theorem avoids_bind {x : Except ε α} {f : α → Except ε β} (hx : Avoids bad x)
    (hf : ∀ a, x = .ok a → Avoids bad (f a)) : Avoids bad (x >>= f) := by
  cases x with
  | error e => exact fun heq => hx (congrArg _ (Except.error.inj heq))
  | ok a => exact hf a rfl

theorem avoids_mapM {f : α → Except ε β} {xs : List α} (h : ∀ x ∈ xs, Avoids bad (f x)) :
    Avoids bad (xs.mapM f) := by
  induction xs with
  | nil => exact avoids_pure _
  | cons x xs ih =>
    obtain ⟨hx, hxs⟩ := List.forall_mem_cons.mp h
    rw [List.mapM_cons]
    exact avoids_bind hx fun _ _ => avoids_bind (ih hxs) fun _ _ => avoids_pure _

theorem avoids_forM {f : α → Except ε Unit} {xs : List α} (h : ∀ x ∈ xs, Avoids bad (f x)) :
    Avoids bad (forM xs f) := by
  induction xs with
  | nil => exact avoids_pure _
  | cons x xs ih =>
    obtain ⟨hx, hxs⟩ := List.forall_mem_cons.mp h
    rw [List.forM_cons]
    exact avoids_bind hx fun _ _ => ih hxs

theorem avoids_foldlM {f : σ → α → Except ε σ} {xs : List α} {s : σ}
    (h : ∀ s, ∀ x ∈ xs, Avoids bad (f s x)) : Avoids bad (xs.foldlM f s) := by
  induction xs generalizing s with
  | nil => exact avoids_pure _
  | cons x xs ih =>
    rw [List.foldlM_cons]
    exact avoids_bind (h s x (List.mem_cons_self ..)) fun s' _ =>
      ih fun s x hx => h s x (List.mem_cons_of_mem _ hx)

end Fallible
