import Mathlib.Data.List.Nodup

/-!
# Seen lists

A pass that refuses repetitions keeps what it has seen and stops at a key it has
seen before. `insertAll` inserts the keys of one element, `Fresh` is what a whole
pass accepts: keys that are distinct and not seen before. A pass over a list
composes by `fresh_append`.
-/

namespace Seen

variable {κ : Type} [DecidableEq κ]

/-- Insert a key that has not been seen. -/
def insertNew (seen : List κ) (key : κ) : Option (List κ) :=
  if key ∈ seen then none else some (key :: seen)

/-- Insert keys one after the other; nothing when one of them has been seen. -/
def insertAll (seen keys : List κ) : Option (List κ) := keys.foldlM insertNew seen

/-- Keys that are distinct and not among the seen ones. -/
def Fresh (keys seen : List κ) : Prop := keys.Nodup ∧ ∀ key ∈ keys, key ∉ seen

omit [DecidableEq κ] in
@[simp] theorem fresh_nil (seen : List κ) : Fresh [] seen := ⟨List.nodup_nil, by simp⟩

omit [DecidableEq κ] in
@[simp] theorem fresh_empty {keys : List κ} : Fresh keys [] ↔ keys.Nodup :=
  ⟨fun h => h.1, fun h => ⟨h, by simp⟩⟩

omit [DecidableEq κ] in
/-- **Composition.** Keys are fresh when the first of them are, and the others
are fresh once these have been seen. -/
theorem fresh_append {keys others seen : List κ} :
    Fresh (keys ++ others) seen ↔ Fresh keys seen ∧ Fresh others (keys.reverse ++ seen) := by
  simp only [Fresh, List.nodup_append, List.mem_append, List.mem_reverse, not_or]
  constructor
  · rintro ⟨⟨hkeys, hothers, hdisjoint⟩, hseen⟩
    refine ⟨⟨hkeys, fun key hkey => hseen key (.inl hkey)⟩, hothers, fun key hkey => ?_⟩
    exact ⟨fun hmem => hdisjoint key hmem key hkey rfl, hseen key (.inr hkey)⟩
  · rintro ⟨⟨hkeys, hseen⟩, hothers, hnew⟩
    refine ⟨⟨hkeys, hothers, ?_⟩, ?_⟩
    · rintro key hkey other hother rfl
      exact (hnew key hother).1 hkey
    · rintro key (hkey | hkey)
      · exact hseen key hkey
      · exact (hnew key hkey).2

omit [DecidableEq κ] in
theorem fresh_cons {key : κ} {others seen : List κ} :
    Fresh (key :: others) seen ↔ key ∉ seen ∧ Fresh others (key :: seen) := by
  rw [← List.singleton_append, fresh_append]
  simp [Fresh]

@[simp] theorem insertNew_eq_some {seen seen' : List κ} {key : κ} :
    insertNew seen key = some seen' ↔ key ∉ seen ∧ seen' = key :: seen := by
  unfold insertNew
  split <;> simp_all [eq_comm]

/-- Inserting keys succeeds when they are fresh. -/
@[simp] theorem insertAll_eq_some {seen seen' keys : List κ} :
    insertAll seen keys = some seen' ↔ Fresh keys seen ∧ seen' = keys.reverse ++ seen := by
  induction keys generalizing seen with
  | nil =>
    rw [insertAll, List.foldlM_nil]
    simp [eq_comm]
  | cons key keys ih =>
    have hstep : insertAll seen (key :: keys) = insertNew seen key >>= (insertAll · keys) := rfl
    simp only [hstep, Option.bind_eq_bind, Option.bind_eq_some_iff, fresh_cons, insertNew_eq_some,
      ih]
    constructor
    · rintro ⟨_, ⟨hnew, rfl⟩, hfresh, rfl⟩
      exact ⟨⟨hnew, hfresh⟩, by simp⟩
    · rintro ⟨⟨hnew, hfresh⟩, rfl⟩
      exact ⟨_, ⟨hnew, rfl⟩, hfresh, by simp⟩

end Seen
