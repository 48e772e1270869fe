import Mathlib.Data.List.Nodup
import Mathlib.Data.List.Perm.Basic

/-!
# Dictionaries in insertion order

A dictionary keeps its entries in the order in which their keys were first set, one entry
for each key. What it binds a key to (`get?`) says which entries it has, and in this sense
two dictionaries agree when their entries are the same up to order (`perm_of_get?`). A pass
that updates the entry of each row's key leaves a key with what the rows of that key make
of it (`get?_foldl_update`).
-/

structure Dict (κ ν : Type) where
  entries : List (κ × ν)
  nodup : (entries.map Prod.fst).Nodup

namespace Dict

variable {κ ν ρ : Type}

def empty : Dict κ ν := ⟨[], List.nodup_nil⟩

def keys (d : Dict κ ν) : List κ := d.entries.map Prod.fst

def values (d : Dict κ ν) : List ν := d.entries.map Prod.snd

def size (d : Dict κ ν) : ℕ := d.entries.length

variable [DecidableEq κ] {d : Dict κ ν} {k k' : κ} {v : ν}

def lookup (k : κ) : List (κ × ν) → Option ν
  | [] => none
  | e :: es => if e.1 = k then some e.2 else lookup k es

def get? (d : Dict κ ν) (k : κ) : Option ν := lookup k d.entries

/-- Replaces the entry of the key, or adds one at the end. -/
def setEntry (k : κ) (v : ν) : List (κ × ν) → List (κ × ν)
  | [] => [(k, v)]
  | e :: es => if e.1 = k then (k, v) :: es else e :: setEntry k v es

theorem mem_keys_setEntry {es : List (κ × ν)} :
    k' ∈ (setEntry k v es).map Prod.fst ↔ k' = k ∨ k' ∈ es.map Prod.fst := by
  induction es with
  | nil => simp [setEntry]
  | cons e es ih =>
    rw [setEntry]
    split
    · next he => simp [he]
    · rw [List.map_cons, List.mem_cons, ih, List.map_cons, List.mem_cons, or_left_comm]

theorem nodup_setEntry {es : List (κ × ν)} (h : (es.map Prod.fst).Nodup) :
    ((setEntry k v es).map Prod.fst).Nodup := by
  induction es with
  | nil => simp [setEntry]
  | cons e es ih =>
    obtain ⟨hnew, hes⟩ := List.nodup_cons.mp h
    rw [setEntry]
    split
    · next he => exact List.nodup_cons.mpr ⟨he ▸ hnew, hes⟩
    · next he =>
      refine List.nodup_cons.mpr ⟨fun hmem => ?_, ih hes⟩
      exact (mem_keys_setEntry.mp hmem).elim he hnew

def set (d : Dict κ ν) (k : κ) (v : ν) : Dict κ ν := ⟨setEntry k v d.entries, nodup_setEntry d.nodup⟩

/-- Sets the entry of a key to what becomes of its present value. -/
def update (d : Dict κ ν) (k : κ) (f : Option ν → ν) : Dict κ ν := d.set k (f (d.get? k))

/-- The entries set one after the other. -/
def ofList (entries : List (κ × ν)) : Dict κ ν := entries.foldl (fun d e => d.set e.1 e.2) empty

/-- The rows of each key, the keys in the order in which they first occur. -/
def groupBy (key : ρ → κ) (rows : List ρ) : Dict κ (List ρ) :=
  rows.foldl (fun groups row => groups.update (key row) fun rows => rows.getD [] ++ [row]) empty

@[simp] theorem get?_empty : (empty : Dict κ ν).get? k = none := rfl

theorem get?_eq_some_iff : d.get? k = some v ↔ (k, v) ∈ d.entries := by
  obtain ⟨es, hes⟩ := d
  show lookup k es = some v ↔ (k, v) ∈ es
  induction es with
  | nil => simp [lookup]
  | cons e es ih =>
    obtain ⟨hnew, hes⟩ := List.nodup_cons.mp hes
    rw [lookup, List.mem_cons]
    by_cases he : e.1 = k
    · rw [if_pos he]
      constructor
      · intro heq
        exact .inl (Prod.ext he.symm (Option.some.inj heq).symm)
      · rintro (heq | hmem)
        · rw [← heq]
        · exact absurd (List.mem_map_of_mem hmem) (he ▸ hnew)
    · rw [if_neg he, ih hes, or_iff_right]
      rintro rfl
      exact he rfl

theorem mem_keys_iff : k ∈ d.keys ↔ ∃ v, d.get? k = some v := by
  simp [keys, get?_eq_some_iff]

theorem get?_eq_none_iff : d.get? k = none ↔ k ∉ d.keys := by
  rw [mem_keys_iff, ← not_iff_not, ← ne_eq, Option.ne_none_iff_exists', not_not]

theorem lookup_setEntry {es : List (κ × ν)} :
    lookup k' (setEntry k v es) = if k' = k then some v else lookup k' es := by
  induction es with
  | nil =>
    rw [setEntry, lookup, lookup]
    by_cases hk : k' = k
    · rw [if_pos hk.symm, if_pos hk]
    · rw [if_neg (Ne.symm hk), if_neg hk]
      rfl
  | cons e es ih =>
    rw [setEntry]
    by_cases he : e.1 = k
    · rw [if_pos he, lookup, lookup]
      by_cases hk : k' = k
      · rw [if_pos hk.symm, if_pos hk]
      · rw [if_neg (Ne.symm hk), if_neg hk, if_neg (he ▸ Ne.symm hk)]
    · rw [if_neg he, lookup, lookup, ih]
      by_cases hk : e.1 = k'
      · rw [if_pos hk, if_neg (hk ▸ he), if_pos hk]
      · rw [if_neg hk, if_neg hk]

theorem get?_set : (d.set k v).get? k' = if k' = k then some v else d.get? k' := lookup_setEntry

theorem get?_update {f : Option ν → ν} :
    (d.update k f).get? k' = if k' = k then some (f (d.get? k)) else d.get? k' := get?_set

theorem mem_keys_set : k' ∈ (d.set k v).keys ↔ k' = k ∨ k' ∈ d.keys := mem_keys_setEntry

theorem mem_keys_update {f : Option ν → ν} : k' ∈ (d.update k f).keys ↔ k' = k ∨ k' ∈ d.keys :=
  mem_keys_setEntry

/-- A new key has its entry at the end. -/
theorem entries_set (h : k ∉ d.keys) : (d.set k v).entries = d.entries ++ [(k, v)] := by
  obtain ⟨es, hes⟩ := d
  show setEntry k v es = es ++ [(k, v)]
  rw [keys] at h
  induction es with
  | nil => rfl
  | cons e es ih =>
    rw [List.map_cons, List.mem_cons, not_or] at h
    rw [setEntry, if_neg (Ne.symm h.1), ih (List.nodup_cons.mp hes).2 h.2]
    rfl

omit [DecidableEq κ] in
theorem nodup_entries (d : Dict κ ν) : d.entries.Nodup := List.Nodup.of_map _ d.nodup

/-- **What the keys are bound to says which entries there are.** -/
theorem perm_of_get? {a b : Dict κ ν} (h : ∀ k, a.get? k = b.get? k) :
    a.entries.Perm b.entries := by
  refine (List.perm_ext_iff_of_nodup a.nodup_entries b.nodup_entries).mpr fun e => ?_
  rw [← get?_eq_some_iff, h, get?_eq_some_iff]

theorem get?_eq_of_perm {a b : Dict κ ν} (h : a.entries.Perm b.entries) (k : κ) :
    a.get? k = b.get? k := by
  ext v
  rw [get?_eq_some_iff, get?_eq_some_iff, h.mem_iff]

/-! ### Passes over rows -/

variable {key : ρ → κ} {step : ρ → Option ν → ν}

/-- **What a pass makes of a key** is what the rows of that key make of it, in order. -/
theorem get?_foldl_update (key : ρ → κ) (step : ρ → Option ν → ν) (rows : List ρ) (d : Dict κ ν)
    (k : κ) : (rows.foldl (fun d row => d.update (key row) (step row)) d).get? k =
      (rows.filter (key · = k)).foldl (fun value row => some (step row value)) (d.get? k) := by
  induction rows generalizing d with
  | nil => rfl
  | cons row rows ih =>
    rw [List.foldl_cons, ih]
    by_cases hk : key row = k
    · rw [List.filter_cons_of_pos (by simpa using hk), List.foldl_cons, get?_update,
        if_pos hk.symm, hk]
    · rw [List.filter_cons_of_neg (by simpa using hk), get?_update, if_neg (Ne.symm hk)]

theorem mem_keys_foldl_update (key : ρ → κ) (step : ρ → Option ν → ν) (rows : List ρ)
    (d : Dict κ ν) : k ∈ (rows.foldl (fun d row => d.update (key row) (step row)) d).keys ↔
      k ∈ rows.map key ∨ k ∈ d.keys := by
  induction rows generalizing d with
  | nil => simp
  | cons row rows ih =>
    rw [List.foldl_cons, ih, mem_keys_update, List.map_cons, List.mem_cons, or_left_comm,
      or_assoc, or_left_comm]

/-- Entries whose keys are new and distinct are all kept, in their order. -/
theorem entries_foldl_set {rows : List (κ × ν)} {d : Dict κ ν}
    (h : (d.keys ++ rows.map Prod.fst).Nodup) :
    (rows.foldl (fun d row => d.set row.1 row.2) d).entries = d.entries ++ rows := by
  induction rows generalizing d with
  | nil => rw [List.foldl_nil, List.append_nil]
  | cons row rows ih =>
    have hnew : row.1 ∉ d.keys := by
      intro hmem
      exact (List.nodup_append.mp h).2.2 _ hmem _ List.mem_cons_self rfl
    have hentries := entries_set (v := row.2) hnew
    have hkeys : (d.set row.1 row.2).keys = d.keys ++ [row.1] := by
      rw [keys, hentries, List.map_append]
      rfl
    rw [List.foldl_cons, ih, hentries, List.append_assoc]
    · rfl
    · rw [hkeys, List.append_assoc]
      exact h

theorem entries_ofList {rows : List (κ × ν)} (h : (rows.map Prod.fst).Nodup) :
    (ofList rows).entries = rows := entries_foldl_set h

/-- The dictionary with the same keys and other values. -/
theorem get?_ofList_map {ν' : Type} (d : Dict κ ν) (f : κ → ν') (k : κ) :
    (ofList (d.entries.map fun e => (e.1, f e.1))).get? k =
      if k ∈ d.keys then some (f k) else none := by
  have hkeys : ((d.entries.map fun e => (e.1, f e.1)).map Prod.fst).Nodup := by
    rw [List.map_map]
    exact d.nodup
  ext v
  rw [get?_eq_some_iff, entries_ofList hkeys, List.mem_map]
  constructor
  · rintro ⟨e, he, heq⟩
    obtain ⟨rfl, rfl⟩ := Prod.mk.inj heq
    exact if_pos (List.mem_map_of_mem he)
  · intro hv
    split at hv
    · next hk =>
      obtain ⟨e, he, rfl⟩ := List.mem_map.mp hk
      exact ⟨e, he, by rw [Option.some.inj hv]⟩
    · cases hv

/-- **The rows of a key** are those that have it, in their order. -/
theorem get?_groupBy (key : ρ → κ) (rows : List ρ) (k : κ) : (groupBy key rows).get? k =
    if rows.filter (key · = k) = [] then none else some (rows.filter (key · = k)) := by
  have hfold : ∀ (found : List ρ) (rows : List ρ), rows.foldl (fun value row =>
      some (Option.getD value [] ++ [row])) (if found = [] then none else some found) =
      if found ++ rows = [] then none else some (found ++ rows) := by
    intro found rows
    induction rows generalizing found with
    | nil => rw [List.append_nil]; rfl
    | cons row rows ih =>
      have hstep : some (Option.getD (if found = [] then none else some found) [] ++ [row]) =
          if found ++ [row] = [] then none else some (found ++ [row]) := by
        rw [if_neg (List.append_ne_nil_of_right_ne_nil _ (List.cons_ne_nil _ _))]
        split
        · next hnil => rw [hnil]; rfl
        · rfl
      rw [List.foldl_cons, hstep, ih, List.append_assoc]
      rfl
  have hget := get?_foldl_update key (fun row (value : Option (List ρ)) => value.getD [] ++ [row])
    rows empty k
  exact hget.trans (hfold [] _)

theorem snd_of_mem_groupBy {key : ρ → κ} {rows : List ρ} {entry : κ × List ρ}
    (h : entry ∈ (groupBy key rows).entries) : entry.2 = rows.filter (key · = entry.1) := by
  have hget := get?_eq_some_iff.mpr h
  rw [get?_groupBy] at hget
  split at hget
  · cases hget
  · exact (Option.some.inj hget).symm

theorem getD_groupBy (key : ρ → κ) (rows : List ρ) (k : κ) :
    ((groupBy key rows).get? k).getD [] = rows.filter (key · = k) := by
  rw [get?_groupBy]
  split
  · next h => exact h.symm
  · rfl

theorem mem_keys_groupBy {key : ρ → κ} {rows : List ρ} :
    k ∈ (groupBy key rows).keys ↔ k ∈ rows.map key := by
  have hkeys := mem_keys_foldl_update (k := k) key
    (fun row (value : Option (List ρ)) => value.getD [] ++ [row]) rows empty
  exact hkeys.trans (or_iff_left List.not_mem_nil)

end Dict
