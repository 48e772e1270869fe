import Mathlib.Data.List.Basic

/-!
# Runs of a labelled machine

A machine answers a label with a reply and a new state. A run is a list of labels;
it is the list of its events. What every step preserves holds along every run
(`forall_events`), and what each step carries over is carried over by a run
(`final_of_step`).
-/

namespace Runs

variable {σ Label Reply : Type}

/-- One step of a run. -/
structure Event (σ Label Reply : Type) where
  before : σ
  label : Label
  reply : Reply
  after : σ

/-- The step a machine makes for a label. -/
def event (step : Label → σ → Reply × σ) (s : σ) (label : Label) : Event σ Label Reply where
  before := s
  label := label
  reply := (step label s).1
  after := (step label s).2

/-- The events of a run, in order. -/
def events (step : Label → σ → Reply × σ) (s : σ) : List Label → List (Event σ Label Reply)
  | [] => []
  | label :: labels => event step s label :: events step (event step s label).after labels

/-- The state a run ends in. -/
def final (step : Label → σ → Reply × σ) (s : σ) (labels : List Label) : σ :=
  labels.foldl (fun s label => (event step s label).after) s

variable {step : Label → σ → Reply × σ}

/-- **The invariant rule.** -/
theorem forall_events {inv : σ → Prop} {safe : Event σ Label Reply → Prop}
    (hstep : ∀ s label, inv s → safe (event step s label) ∧ inv (event step s label).after)
    {s : σ} (hs : inv s) (labels : List Label) :
    (∀ e ∈ events step s labels, safe e) ∧ inv (final step s labels) := by
  induction labels generalizing s with
  | nil => exact ⟨fun _ he => absurd he (by simp [events]), hs⟩
  | cons label labels ih =>
    obtain ⟨hsafe, hafter⟩ := hstep s label hs
    obtain ⟨hevents, hfinal⟩ := ih hafter
    exact ⟨List.forall_mem_cons.mpr ⟨hsafe, hevents⟩, hfinal⟩

/-- What a step carries over unless it is excused, a run carries over unless one of
its events is. -/
theorem final_of_step {kept : σ → Prop} {excused : Event σ Label Reply → Prop}
    (hstep : ∀ s label, kept s → ¬ excused (event step s label) →
      kept (event step s label).after)
    {s : σ} {labels : List Label} (hs : kept s)
    (hnone : ∀ e ∈ events step s labels, ¬ excused e) : kept (final step s labels) := by
  induction labels generalizing s with
  | nil => exact hs
  | cons label labels ih =>
    obtain ⟨hfirst, hrest⟩ := List.forall_mem_cons.mp hnone
    exact ih (hstep s label hs hfirst) hrest

/-- **The history rule.** An invariant of the past and the state holds before every
event of a run, when every event that is good carries it on and all are good. -/
theorem before_event {inv : List (Event σ Label Reply) → σ → Prop}
    {good : Event σ Label Reply → Prop}
    (hstep : ∀ past s label, inv past s → good (event step s label) →
      inv (past ++ [event step s label]) (event step s label).after)
    {past : List (Event σ Label Reply)} {s : σ} (hs : inv past s) {labels : List Label}
    (hgood : ∀ e ∈ events step s labels, good e) {pre post : List (Event σ Label Reply)}
    {e : Event σ Label Reply} (hevents : events step s labels = pre ++ e :: post) :
    inv (past ++ pre) e.before ∧ e = event step e.before e.label := by
  induction labels generalizing past s pre with
  | nil => cases pre <;> cases hevents
  | cons label labels ih =>
    obtain ⟨hfirst, hrest⟩ := List.forall_mem_cons.mp hgood
    cases pre with
    | nil =>
      obtain ⟨rfl, -⟩ := List.cons.inj hevents
      exact ⟨by rwa [List.append_nil], rfl⟩
    | cons first pre =>
      obtain ⟨rfl, htail⟩ := List.cons.inj hevents
      have hinv := ih (hstep past s label hs hfirst) hrest htail
      rwa [List.append_assoc, List.singleton_append] at hinv

/-- What holds of the past and the state after it holds at the end of a run. -/
theorem after_events {inv : List (Event σ Label Reply) → σ → Prop}
    {good : Event σ Label Reply → Prop}
    (hstep : ∀ past s label, inv past s → good (event step s label) →
      inv (past ++ [event step s label]) (event step s label).after)
    {past : List (Event σ Label Reply)} {s : σ} (hs : inv past s) {labels : List Label}
    (hgood : ∀ e ∈ events step s labels, good e) :
    inv (past ++ events step s labels) (final step s labels) := by
  induction labels generalizing past s with
  | nil => simpa [events, final] using hs
  | cons label labels ih =>
    obtain ⟨hfirst, hrest⟩ := List.forall_mem_cons.mp hgood
    have hinv := ih (hstep past s label hs hfirst) hrest
    rwa [List.append_assoc, List.singleton_append] at hinv

end Runs
