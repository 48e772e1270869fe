import Mathlib.Data.List.Infix
import LivefireRag.Lib.Json

/-!
# Values at paths

A path is a list of keys; it leads through objects. `placed path value members` puts a
value at a path, making the objects on the way. What it leaves at every path is said
by three lemmas, by how the two paths lie: below the new value (`valueAt_placed_below`),
above it (`valueAt_placed_above`), and off it (`valueAt_placed_off`). Placements at
paths that do not lie above one another commute (`placed_comm`).
-/

namespace Json

open SortedMap

/-- The value at a path. -/
def valueAt : List String → Json → Option Json
  | [], value => some value
  | key :: path, .object members => (field? members key).bind (valueAt path)
  | _ :: _, _ => none

def IsObject (value : Json) : Prop := ∃ members, value = .object members

/-- Neither path is the beginning of the other. -/
def Apart (p q : List String) : Prop := ¬ p <+: q ∧ ¬ q <+: p

theorem Apart.symm {p q : List String} (h : Apart p q) : Apart q p := ⟨h.2, h.1⟩

/-- The members of the object at a key; none when there is no object. -/
def membersAt (members : List (String × Json)) (key : String) : List (String × Json) :=
  match field? members key with
  | some (.object inner) => inner
  | _ => []

/-- The members with a value at a path. -/
def placed : List String → Json → List (String × Json) → List (String × Json)
  | [], _, members => members
  | [key], value, members => insertEntry key value members
  | key :: next :: path, value, members =>
    insertEntry key (.object (placed (next :: path) value (membersAt members key))) members

/-! ### Members -/

theorem field?_insertEntry (key key' : String) (value : Json) (members : List (String × Json)) :
    field? (insertEntry key value members) key' =
      if key' = key then some value else field? members key' := by
  induction members with
  | nil =>
    by_cases h : key' = key
    · simp [insertEntry, field?, h]
    · simp [insertEntry, field?, h, Ne.symm h]
  | cons entry members ih =>
    have hcons : ∀ (e : String × Json) es, field? (e :: es) key' =
        if e.1 = key' then some e.2 else field? es key' := by
      intro e es
      by_cases he : e.1 = key' <;> simp [field?, he]
    rw [insertEntry]
    split_ifs with hlt heq hkey hkey <;> simp only [hcons, ih] <;> grind

theorem insertEntry_insertEntry (key : String) (value value' : Json)
    (members : List (String × Json)) :
    insertEntry key value (insertEntry key value' members) = insertEntry key value members := by
  induction members with
  | nil => simp [insertEntry]
  | cons entry members ih =>
    by_cases hlt : key < entry.1
    · simp [insertEntry, hlt]
    · by_cases heq : key = entry.1
      · simp [insertEntry, heq]
      · simp [insertEntry, hlt, heq, ih]

theorem insertEntry_comm {key key' : String} (hne : key ≠ key') (value value' : Json)
    (members : List (String × Json)) :
    insertEntry key value (insertEntry key' value' members) =
      insertEntry key' value' (insertEntry key value members) := by
  induction members with
  | nil =>
    rcases lt_or_gt_of_ne hne with hlt | hlt
    · simp [insertEntry, hlt, hlt.asymm, hne.symm]
    · simp [insertEntry, hlt, hlt.asymm, hne]
  | cons entry members ih =>
    simp only [insertEntry]
    split_ifs <;> grind [insertEntry]

theorem membersAt_insertEntry_ne {key key' : String} (hne : key' ≠ key) (value : Json)
    (members : List (String × Json)) :
    membersAt (insertEntry key value members) key' = membersAt members key' := by
  rw [membersAt, field?_insertEntry, if_neg hne, membersAt]

theorem membersAt_insertEntry_object (key : String) (inner members : List (String × Json)) :
    membersAt (insertEntry key (.object inner) members) key = inner := by
  rw [membersAt, field?_insertEntry, if_pos rfl]

theorem placed_cons (key : String) (path : List String) (value : Json)
    (members : List (String × Json)) :
    placed (key :: path) value members =
      insertEntry key (if path = [] then value
        else .object (placed path value (membersAt members key))) members := by
  cases path with
  | nil => rfl
  | cons next path => rfl

/-! ### Values -/

@[simp] theorem valueAt_nil (value : Json) : valueAt [] value = some value := rfl

theorem valueAt_cons (key : String) (path : List String) (members : List (String × Json)) :
    valueAt (key :: path) (.object members) = (field? members key).bind (valueAt path) := rfl

theorem valueAt_append (p q : List String) (value : Json) :
    valueAt (p ++ q) value = (valueAt p value).bind (valueAt q) := by
  induction p generalizing value with
  | nil => rfl
  | cons key p ih =>
    cases value with
    | object members =>
      rw [List.cons_append, valueAt_cons, valueAt_cons, Option.bind_assoc]
      exact Option.bind_congr fun inner _ => ih inner
    | null => rfl
    | bool => rfl
    | number => rfl
    | string => rfl
    | array => rfl

theorem valueAt_of_not_object {value : Json} (h : ¬ IsObject value) {path : List String}
    (hpath : path ≠ []) : valueAt path value = none := by
  cases path with
  | nil => exact absurd rfl hpath
  | cons key path =>
    cases value with
    | object members => exact absurd ⟨members, rfl⟩ h
    | null => rfl
    | bool => rfl
    | number => rfl
    | string => rfl
    | array => rfl

theorem valueAt_membersAt {members : List (String × Json)} {key : String} {path : List String}
    (hpath : path ≠ []) :
    valueAt path (.object (membersAt members key)) =
      (field? members key).bind (valueAt path) := by
  have hempty : valueAt path (.object []) = none := by
    cases path with
    | nil => exact absurd rfl hpath
    | cons key path => rfl
  rw [membersAt]
  cases hfield : field? members key with
  | none => exact hempty
  | some value =>
    by_cases hobject : IsObject value
    · obtain ⟨inner, rfl⟩ := hobject
      rfl
    · have hnone := valueAt_of_not_object hobject hpath
      rw [Option.bind_some, hnone]
      cases value with
      | object inner => exact absurd ⟨inner, rfl⟩ hobject
      | null => exact hempty
      | bool => exact hempty
      | number => exact hempty
      | string => exact hempty
      | array => exact hempty

section Placed

variable (value : Json) (members : List (String × Json))

/-- The new value, and what is below it. -/
theorem valueAt_placed_below {p : List String} (hp : p ≠ []) (q : List String) :
    valueAt (p ++ q) (.object (placed p value members)) = valueAt q value := by
  induction p generalizing members with
  | nil => exact absurd rfl hp
  | cons key p ih =>
    rw [List.cons_append, placed_cons, valueAt_cons, field?_insertEntry, if_pos rfl,
      Option.bind_some]
    by_cases hnil : p = []
    · rw [if_pos hnil, hnil, List.nil_append]
    · rw [if_neg hnil]
      exact ih _ hnil

/-- Above the new value there are objects. -/
theorem valueAt_placed_above {p s : List String} (hs : s <+: p) (hne : s ≠ p) :
    ∃ inner, valueAt s (.object (placed p value members)) = some (.object inner) := by
  induction p generalizing members s with
  | nil => exact absurd (List.prefix_nil.mp hs) hne
  | cons key p ih =>
    cases s with
    | nil => exact ⟨_, rfl⟩
    | cons key' s =>
      obtain ⟨rfl, hprefix⟩ := List.cons_prefix_cons.mp hs
      have hne' : s ≠ p := fun h => hne (by rw [h])
      have hnil : p ≠ [] := by
        rintro rfl
        exact hne' (List.prefix_nil.mp hprefix)
      rw [placed_cons, valueAt_cons, field?_insertEntry, if_pos rfl, Option.bind_some,
        if_neg hnil]
      exact ih _ hprefix hne'

/-- Off the new value nothing changes. -/
theorem valueAt_placed_off {p s : List String} (h : Apart p s) :
    valueAt s (.object (placed p value members)) = valueAt s (.object members) := by
  induction p generalizing members s with
  | nil => exact absurd (List.nil_prefix) h.1
  | cons key p ih =>
    cases s with
    | nil => exact absurd (List.nil_prefix) h.2
    | cons key' s =>
      rw [placed_cons, valueAt_cons, valueAt_cons, field?_insertEntry]
      by_cases hkey : key' = key
      · subst hkey
        have hapart : Apart p s :=
          ⟨fun hps => h.1 (List.cons_prefix_cons.mpr ⟨rfl, hps⟩),
            fun hsp => h.2 (List.cons_prefix_cons.mpr ⟨rfl, hsp⟩)⟩
        have hp : p ≠ [] := fun hnil => hapart.1 (hnil ▸ List.nil_prefix)
        have hs : s ≠ [] := fun hnil => hapart.2 (hnil ▸ List.nil_prefix)
        rw [if_pos rfl, if_neg hp, Option.bind_some, ih _ hapart, valueAt_membersAt hs]
      · rw [if_neg hkey]

end Placed

/-- **Placements at paths that lie apart commute.** -/
theorem placed_comm {p q : List String} (h : Apart p q) (value value' : Json)
    (members : List (String × Json)) :
    placed p value (placed q value' members) = placed q value' (placed p value members) := by
  induction p generalizing members q with
  | nil => exact absurd (List.nil_prefix) h.1
  | cons key p ih =>
    cases q with
    | nil => exact absurd (List.nil_prefix) h.2
    | cons key' q =>
      rw [placed_cons, placed_cons, placed_cons, placed_cons]
      by_cases hkey : key = key'
      · subst hkey
        have hapart : Apart p q :=
          ⟨fun hpq => h.1 (List.cons_prefix_cons.mpr ⟨rfl, hpq⟩),
            fun hqp => h.2 (List.cons_prefix_cons.mpr ⟨rfl, hqp⟩)⟩
        have hp : p ≠ [] := fun hnil => hapart.1 (hnil ▸ List.nil_prefix)
        have hq : q ≠ [] := fun hnil => hapart.2 (hnil ▸ List.nil_prefix)
        rw [if_neg hp, if_neg hq, membersAt_insertEntry_object, if_neg hp, if_neg hq,
          membersAt_insertEntry_object, insertEntry_insertEntry, insertEntry_insertEntry,
          ih hapart]
      · rw [membersAt_insertEntry_ne hkey, membersAt_insertEntry_ne (Ne.symm hkey),
          insertEntry_comm hkey]

end Json
