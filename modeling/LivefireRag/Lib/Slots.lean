import Mathlib.Data.List.Nodup
import Mathlib.Data.List.Perm.Subperm

/-!
# Filling slots by position

Entries carry the position of the slot that they belong in. They find their slots empty
when their positions are distinct and in range (`Free`), and as many entries as slots do so
exactly when the positions are a permutation of the slots' (`free_replicate_iff`). The
slots then hold the entries in order of position, in whatever order they came
(`fill_eq_map_some_iff`).
-/

namespace Slots

variable {α : Type} {slots : List (Option α)} {entries : List (ℕ × α)}

/-- The slots once the entries are placed. -/
def fill (slots : List (Option α)) (entries : List (ℕ × α)) : List (Option α) :=
  entries.foldl (fun slots entry => slots.set entry.1 (some entry.2)) slots

/-- Every entry finds its slot empty. -/
def Free (slots : List (Option α)) (entries : List (ℕ × α)) : Prop :=
  (entries.map Prod.fst).Nodup ∧ ∀ entry ∈ entries, slots[entry.1]? = some none

theorem fill_cons (slots : List (Option α)) (entry : ℕ × α) (entries : List (ℕ × α)) :
    fill slots (entry :: entries) = fill (slots.set entry.1 (some entry.2)) entries := rfl

theorem free_nil (slots : List (Option α)) : Free slots [] :=
  ⟨List.nodup_nil, fun _ h => absurd h List.not_mem_nil⟩

/-- The first entry finds its slot empty, and leaves the others theirs. -/
theorem free_cons {entry : ℕ × α} : Free slots (entry :: entries) ↔
    slots[entry.1]? = some none ∧ Free (slots.set entry.1 (some entry.2)) entries := by
  have hset : ∀ position, (slots.set entry.1 (some entry.2))[position]? = some none ↔
      entry.1 ≠ position ∧ slots[position]? = some none := by
    intro position
    rw [List.getElem?_set]
    split
    · next hsame =>
      -- a filled slot is not empty, in range or not
      refine iff_of_false ?_ fun h => h.1 hsame
      split <;> exact nofun
    · next hne => exact (and_iff_right hne).symm
  rw [Free, Free, List.map_cons, List.nodup_cons, List.forall_mem_cons]
  constructor
  · rintro ⟨⟨hnew, hnodup⟩, hempty, hrest⟩
    refine ⟨hempty, hnodup, fun other hother => (hset other.1).mpr ⟨?_, hrest other hother⟩⟩
    intro hsame
    exact hnew (hsame ▸ List.mem_map_of_mem hother)
  · rintro ⟨hempty, hnodup, hrest⟩
    refine ⟨⟨?_, hnodup⟩, hempty, fun other hother => ((hset other.1).mp (hrest other hother)).2⟩
    intro hmem
    obtain ⟨other, hother, hsame⟩ := List.mem_map.mp hmem
    exact ((hset other.1).mp (hrest other hother)).1 hsame.symm

theorem length_fill (slots : List (Option α)) (entries : List (ℕ × α)) :
    (fill slots entries).length = slots.length := by
  induction entries generalizing slots with
  | nil => rfl
  | cons entry entries ih => rw [fill_cons, ih, List.length_set]

theorem getElem?_fill_of_notMem {position : ℕ} (h : position ∉ entries.map Prod.fst) :
    (fill slots entries)[position]? = slots[position]? := by
  induction entries generalizing slots with
  | nil => rfl
  | cons entry entries ih =>
    rw [List.map_cons, List.mem_cons, not_or] at h
    rw [fill_cons, ih h.2, List.getElem?_set_ne (Ne.symm h.1)]

theorem getElem?_fill_of_mem (hfree : Free slots entries) {entry : ℕ × α} (h : entry ∈ entries) :
    (fill slots entries)[entry.1]? = some (some entry.2) := by
  induction entries generalizing slots with
  | nil => exact absurd h List.not_mem_nil
  | cons first entries ih =>
    obtain ⟨hempty, hrest⟩ := free_cons.mp hfree
    rw [fill_cons]
    rcases List.mem_cons.mp h with rfl | hmem
    · -- nothing later is placed in the slot of the first entry
      rw [getElem?_fill_of_notMem (List.nodup_cons.mp hfree.1).1,
        List.getElem?_set_self (List.getElem?_eq_some_iff.mp hempty).1]
    · exact ih hrest hmem

/-! ### As many entries as slots -/

/-- **Pigeonhole.** As many entries as slots fit exactly when their positions are those of
the slots in some order. -/
theorem free_replicate_iff {n : ℕ} (hlength : entries.length = n) :
    Free (List.replicate n none) entries ↔ (entries.map Prod.fst).Perm (List.range n) := by
  have hempty : ∀ position, (List.replicate n (none : Option α))[position]? = some none ↔
      position < n := by
    intro position
    rw [List.getElem?_replicate]
    split <;> simp_all
  constructor
  · rintro ⟨hnodup, hrange⟩
    have hsubset : entries.map Prod.fst ⊆ List.range n := by
      intro position hposition
      obtain ⟨entry, hentry, rfl⟩ := List.mem_map.mp hposition
      exact List.mem_range.mpr ((hempty entry.1).mp (hrange entry hentry))
    refine (List.subperm_of_subset hnodup hsubset).perm_of_length_le (Nat.le_of_eq ?_)
    rw [List.length_range, List.length_map, hlength]
  · intro hperm
    refine ⟨hperm.nodup_iff.mpr List.nodup_range, fun entry hentry => (hempty entry.1).mpr ?_⟩
    exact List.mem_range.mp (hperm.subset (List.mem_map_of_mem hentry))

/-- All slots are filled, each by the entry that has its position. -/
theorem fill_eq_map_some_iff {n : ℕ} (hperm : (entries.map Prod.fst).Perm (List.range n))
    {values : List α} : fill (List.replicate n none) entries = values.map some ↔
      values.length = n ∧ ∀ entry ∈ entries, values[entry.1]? = some entry.2 := by
  have hlength : entries.length = n := by
    have := hperm.length_eq
    rwa [List.length_map, List.length_range] at this
  have hfree := (free_replicate_iff hlength).mpr hperm
  constructor
  · intro hfill
    refine ⟨?_, fun entry hentry => ?_⟩
    · have := congrArg List.length hfill
      rw [length_fill, List.length_replicate, List.length_map] at this
      exact this.symm
    · have hslot := getElem?_fill_of_mem hfree hentry
      rw [hfill, List.getElem?_map] at hslot
      obtain ⟨value, hvalue, hsame⟩ := Option.map_eq_some_iff.mp hslot
      rw [hvalue, hsame]
  · rintro ⟨hvalues, hslots⟩
    apply List.ext_getElem?
    intro position
    by_cases hlt : position < n
    · obtain ⟨entry, hentry, rfl⟩ :=
        List.mem_map.mp (hperm.symm.subset (List.mem_range.mpr hlt))
      rw [getElem?_fill_of_mem hfree hentry, List.getElem?_map, hslots entry hentry]
      rfl
    · rw [List.getElem?_eq_none, List.getElem?_eq_none]
      · rw [List.length_map]
        omega
      · rw [length_fill, List.length_replicate]
        omega

theorem exists_map_some (h : ∀ slot ∈ slots, slot ≠ none) : ∃ values : List α,
    slots = values.map some := by
  induction slots with
  | nil => exact ⟨[], rfl⟩
  | cons slot slots ih =>
    obtain ⟨hslot, hslots⟩ := List.forall_mem_cons.mp h
    obtain ⟨value, rfl⟩ := Option.ne_none_iff_exists'.mp hslot
    obtain ⟨values, rfl⟩ := ih hslots
    exact ⟨value :: values, rfl⟩

theorem exists_values {n : ℕ} (hperm : (entries.map Prod.fst).Perm (List.range n)) :
    ∃ values : List α, values.length = n ∧ ∀ entry ∈ entries, values[entry.1]? = some entry.2 := by
  have hlength : entries.length = n := by
    have := hperm.length_eq
    rwa [List.length_map, List.length_range] at this
  have hfree := (free_replicate_iff hlength).mpr hperm
  have hfull : ∀ slot ∈ fill (List.replicate n none) entries, slot ≠ none := by
    intro slot hslot
    obtain ⟨position, hlt, rfl⟩ := List.mem_iff_getElem.mp hslot
    rw [length_fill, List.length_replicate] at hlt
    obtain ⟨entry, hentry, rfl⟩ := List.mem_map.mp (hperm.symm.subset (List.mem_range.mpr hlt))
    have hfilled := getElem?_fill_of_mem hfree hentry
    rw [List.getElem?_eq_some_iff] at hfilled
    obtain ⟨_, hfilled⟩ := hfilled
    rw [hfilled]
    exact nofun
  obtain ⟨values, hvalues⟩ := exists_map_some hfull
  exact ⟨values, (fill_eq_map_some_iff hperm).mp hvalues⟩

end Slots
