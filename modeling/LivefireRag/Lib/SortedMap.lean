import Mathlib.Data.List.Nodup
import Mathlib.Data.List.Sort
import Mathlib.Data.List.Induction
import Mathlib.Order.Basic
import Mathlib.Order.Defs.LinearOrder

/-!
# Maps with ordered keys

A finite map kept as its list of entries in strictly increasing key order, the
order in which such a map is iterated and serialised. The order is a field of
the structure, so a map is determined by its lookups (`SortedMap.ext_get?`).

`ofList` collects a list of pairs, a later pair replacing an earlier one with
the same key. Comparing the size of the collected map with the length of the
list is a test for repeated keys (`size_ofList_eq_length_iff`); when it passes,
looking a key up finds the pair that carries it (`get?_ofList`).
-/

/-- A finite map from `κ` to `ν`, with its entries in key order. -/
structure SortedMap (κ ν : Type) [LinearOrder κ] where
  entries : List (κ × ν)
  sorted : entries.Pairwise fun a b => a.1 < b.1

namespace SortedMap

variable {κ ν : Type} [LinearOrder κ]

instance [DecidableEq ν] : DecidableEq (SortedMap κ ν) := fun a b =>
  decidable_of_iff (a.entries = b.entries) ⟨fun h => by cases a; cases b; simp_all, fun h => h ▸ rfl⟩

/-- The map without entries. -/
def empty : SortedMap κ ν := ⟨[], List.Pairwise.nil⟩

/-- The keys of the map, in order. -/
def keys (m : SortedMap κ ν) : List κ := m.entries.map Prod.fst

/-- The values of the map, in key order. -/
def values (m : SortedMap κ ν) : List ν := m.entries.map Prod.snd

/-- The number of entries. -/
def size (m : SortedMap κ ν) : ℕ := m.entries.length

/-- The value at a key. -/
def get? (m : SortedMap κ ν) (k : κ) : Option ν :=
  (m.entries.find? fun e => e.1 = k).map Prod.snd

/-- Insertion into a list of entries, replacing the entry with the same key. -/
def insertEntry (k : κ) (v : ν) : List (κ × ν) → List (κ × ν)
  | [] => [(k, v)]
  | e :: es =>
    if k < e.1 then (k, v) :: e :: es
    else if k = e.1 then (k, v) :: es
    else e :: insertEntry k v es

theorem mem_insertEntry {k : κ} {v : ν} {es : List (κ × ν)} {e : κ × ν}
    (h : e ∈ insertEntry k v es) : e = (k, v) ∨ e ∈ es := by
  induction es with
  | nil => exact Or.inl (List.mem_singleton.mp h)
  | cons d es ih =>
    rw [insertEntry] at h
    split_ifs at h with h1 h2
    · exact List.mem_cons.mp h
    · exact (List.mem_cons.mp h).imp_right (List.mem_cons_of_mem _)
    · rcases List.mem_cons.mp h with rfl | h
      · exact Or.inr (List.mem_cons_self ..)
      · exact (ih h).imp_right (List.mem_cons_of_mem _)

theorem insertEntry_sorted {k : κ} {v : ν} {es : List (κ × ν)}
    (h : es.Pairwise fun a b => a.1 < b.1) :
    (insertEntry k v es).Pairwise fun a b => a.1 < b.1 := by
  induction es with
  | nil => exact List.pairwise_singleton _ _
  | cons d es ih =>
    obtain ⟨hd, hes⟩ := List.pairwise_cons.mp h
    rw [insertEntry]
    split_ifs with h1 h2
    · refine List.pairwise_cons.mpr ⟨fun e he => ?_, h⟩
      rcases List.mem_cons.mp he with rfl | he
      · exact h1
      · exact h1.trans (hd e he)
    · exact List.pairwise_cons.mpr ⟨fun e he => h2 ▸ hd e he, hes⟩
    · refine List.pairwise_cons.mpr ⟨fun e he => ?_, ih hes⟩
      rcases mem_insertEntry he with rfl | he
      · exact lt_of_le_of_ne (not_lt.mp h1) (Ne.symm h2)
      · exact hd e he

/-- The map with `v` at `k`. -/
def insert (m : SortedMap κ ν) (k : κ) (v : ν) : SortedMap κ ν :=
  ⟨insertEntry k v m.entries, insertEntry_sorted m.sorted⟩

/-- The map without the key `k`. -/
def erase (m : SortedMap κ ν) (k : κ) : SortedMap κ ν :=
  ⟨m.entries.filter fun e => e.1 ≠ k, m.sorted.filter _⟩

/-- The map with every value replaced. -/
def mapValues {ν' : Type} (f : ν → ν') (m : SortedMap κ ν) : SortedMap κ ν' :=
  ⟨m.entries.map fun e => (e.1, f e.2), List.pairwise_map.mpr m.sorted⟩

/-- The map of a list of pairs; of two pairs with one key the later one stays. -/
def ofList (ps : List (κ × ν)) : SortedMap κ ν :=
  ps.foldl (fun m p => m.insert p.1 p.2) empty

/-! ### Lookups -/

theorem get?_eq_some_iff {m : SortedMap κ ν} {k : κ} {v : ν} :
    m.get? k = some v ↔ (k, v) ∈ m.entries := by
  obtain ⟨es, hes⟩ := m
  simp only [get?, Option.map_eq_some_iff]
  induction es with
  | nil => simp
  | cons e es ih =>
    obtain ⟨he, hes'⟩ := List.pairwise_cons.mp hes
    by_cases hk : e.1 = k
    · have hrest : (k, v) ∉ es := fun hmem => absurd (he _ hmem) (by simp [hk])
      simp only [List.find?_cons_of_pos (p := fun e : κ × ν => decide (e.1 = k)) (by simpa using hk),
        Option.some.injEq, exists_eq_left', List.mem_cons, hrest, or_false]
      constructor
      · rintro rfl
        exact Prod.ext hk.symm rfl
      · rintro rfl
        rfl
    · have hne : (k, v) ≠ e := fun h => hk (by rw [← h])
      rw [List.find?_cons_of_neg (p := fun e : κ × ν => decide (e.1 = k)) (by simpa using hk),
        ih hes', List.mem_cons]
      simp [hne]

theorem mem_keys_iff {m : SortedMap κ ν} {k : κ} : k ∈ m.keys ↔ ∃ v, m.get? k = some v := by
  simp [keys, get?_eq_some_iff]

theorem get?_eq_none_iff {m : SortedMap κ ν} {k : κ} : m.get? k = none ↔ k ∉ m.keys := by
  rw [mem_keys_iff, Option.eq_none_iff_forall_ne_some]
  exact not_exists.symm

theorem get?_mapValues {ν' : Type} (f : ν → ν') (m : SortedMap κ ν) (k : κ) :
    (m.mapValues f).get? k = (m.get? k).map f := by
  refine Option.ext fun v => ?_
  rw [get?_eq_some_iff, Option.map_eq_some_iff, mapValues, List.mem_map]
  constructor
  · rintro ⟨e, he, heq⟩
    obtain ⟨rfl, rfl⟩ := Prod.mk.inj heq
    exact ⟨e.2, get?_eq_some_iff.mpr he, rfl⟩
  · rintro ⟨a, ha, rfl⟩
    exact ⟨(k, a), get?_eq_some_iff.mp ha, rfl⟩

/-- Two maps with the same lookups are the same map. -/
theorem ext_get? {a b : SortedMap κ ν} (h : ∀ k, a.get? k = b.get? k) : a = b := by
  have hmem : ∀ e, e ∈ a.entries ↔ e ∈ b.entries := by
    rintro ⟨k, v⟩
    rw [← get?_eq_some_iff, ← get?_eq_some_iff, h]
  obtain ⟨es, hes⟩ := a
  obtain ⟨fs, hfs⟩ := b
  have : Std.Antisymm fun x y : κ × ν => x.1 < y.1 := ⟨fun x y h1 h2 => absurd h2 h1.asymm⟩
  have : Std.Irrefl fun x y : κ × ν => x.1 < y.1 := ⟨fun x => lt_irrefl x.1⟩
  obtain rfl : es = fs := List.Pairwise.eq_of_mem_iff hes hfs hmem
  rfl

theorem nodup_keys (m : SortedMap κ ν) : m.keys.Nodup :=
  (List.pairwise_map.mpr m.sorted).imp ne_of_lt

@[simp] theorem get?_empty (k : κ) : (empty : SortedMap κ ν).get? k = none := rfl

theorem mem_insert_entries {m : SortedMap κ ν} {k : κ} {v : ν} {e : κ × ν} :
    e ∈ (m.insert k v).entries ↔ e = (k, v) ∨ e ∈ m.entries ∧ e.1 ≠ k := by
  obtain ⟨es, hes⟩ := m
  simp only [insert]
  induction es with
  | nil => simp [insertEntry]
  | cons d es ih =>
    obtain ⟨hd, hes'⟩ := List.pairwise_cons.mp hes
    rw [insertEntry]
    split_ifs with h1 h2
    · have hne : ∀ e ∈ d :: es, e.1 ≠ k := by
        intro e he
        rcases List.mem_cons.mp he with rfl | he
        · exact h1.ne'
        · exact (h1.trans (hd e he)).ne'
      grind
    · have hne : ∀ e ∈ es, e.1 ≠ k := fun e he => h2 ▸ (hd e he).ne'
      grind
    · have hrec := ih hes'
      grind

theorem get?_insert (m : SortedMap κ ν) (k k' : κ) (v : ν) :
    (m.insert k v).get? k' = if k' = k then some v else m.get? k' := by
  apply Option.ext
  intro w
  rw [get?_eq_some_iff, mem_insert_entries]
  split_ifs with h
  · subst h
    simp [eq_comm]
  · simp [h, get?_eq_some_iff]

theorem get?_erase (m : SortedMap κ ν) (k k' : κ) :
    (m.erase k).get? k' = if k' = k then none else m.get? k' := by
  apply Option.ext
  intro w
  rw [get?_eq_some_iff, erase, List.mem_filter]
  split_ifs with h
  · simp [h]
  · simp [h, get?_eq_some_iff]

theorem mem_keys_insert {m : SortedMap κ ν} {k k' : κ} {v : ν} :
    k' ∈ (m.insert k v).keys ↔ k' = k ∨ k' ∈ m.keys := by
  simp only [mem_keys_iff, get?_insert]
  by_cases h : k' = k <;> simp [h]

/-! ### Sizes -/

theorem length_insertEntry {k : κ} {v : ν} {es : List (κ × ν)}
    (hes : es.Pairwise fun a b => a.1 < b.1) :
    (insertEntry k v es).length =
      if k ∈ es.map Prod.fst then es.length else es.length + 1 := by
  induction es with
  | nil => rfl
  | cons d es ih =>
    obtain ⟨hd, hes'⟩ := List.pairwise_cons.mp hes
    rw [insertEntry, List.map_cons]
    by_cases h1 : k < d.1
    · have hout : k ∉ d.1 :: es.map Prod.fst := by
        rw [List.mem_cons, List.mem_map]
        rintro (rfl | ⟨e, he, rfl⟩)
        · exact lt_irrefl _ h1
        · exact h1.asymm (hd e he)
      rw [if_pos h1, if_neg hout, List.length_cons]
    · by_cases h2 : k = d.1
      · rw [if_neg h1, if_pos h2, if_pos (List.mem_cons.mpr (Or.inl h2))]
        rfl
      · rw [if_neg h1, if_neg h2, List.length_cons, ih hes']
        by_cases h3 : k ∈ es.map Prod.fst
        · rw [if_pos h3, if_pos (List.mem_cons_of_mem _ h3), List.length_cons]
        · rw [if_neg h3, if_neg (by simp only [List.mem_cons]; tauto), List.length_cons]

theorem size_insert (m : SortedMap κ ν) (k : κ) (v : ν) :
    (m.insert k v).size = if k ∈ m.keys then m.size else m.size + 1 :=
  length_insertEntry m.sorted

/-! ### Maps collected from a list -/

theorem ofList_concat (ps : List (κ × ν)) (p : κ × ν) :
    ofList (ps ++ [p]) = (ofList ps).insert p.1 p.2 := by
  simp [ofList]

theorem mem_keys_ofList {ps : List (κ × ν)} {k : κ} :
    k ∈ (ofList ps).keys ↔ k ∈ ps.map Prod.fst := by
  induction ps using List.reverseRecOn with
  | nil => simp [ofList, empty, keys]
  | append_singleton ps p ih =>
    rw [ofList_concat, mem_keys_insert, ih]
    simp [or_comm]

theorem size_ofList_le (ps : List (κ × ν)) : (ofList ps).size ≤ ps.length := by
  induction ps using List.reverseRecOn with
  | nil => simp [ofList, empty, size]
  | append_singleton ps p ih =>
    rw [ofList_concat, size_insert, List.length_append, List.length_singleton]
    split_ifs <;> omega

/-- The collected map is as large as the list exactly when no key repeats. -/
theorem size_ofList_eq_length_iff {ps : List (κ × ν)} :
    (ofList ps).size = ps.length ↔ (ps.map Prod.fst).Nodup := by
  induction ps using List.reverseRecOn with
  | nil => simp [ofList, empty, size]
  | append_singleton ps p ih =>
    have hle := size_ofList_le ps
    rw [ofList_concat, size_insert, List.length_append, List.length_singleton,
      List.map_append, List.map_singleton, List.nodup_append_comm, List.singleton_append,
      List.nodup_cons]
    by_cases h : p.1 ∈ (ofList ps).keys
    · rw [if_pos h]
      simp only [mem_keys_ofList.mp h, not_true_eq_false, false_and, iff_false]
      omega
    · rw [if_neg h, ← ih, ← mem_keys_ofList]
      simp [h]

/-- A lookup in a map collected from pairs with distinct keys finds the pair. -/
theorem get?_ofList {ps : List (κ × ν)} (h : (ps.map Prod.fst).Nodup) {k : κ} {v : ν} :
    (ofList ps).get? k = some v ↔ (k, v) ∈ ps := by
  induction ps using List.reverseRecOn with
  | nil => simp [ofList]
  | append_singleton ps p ih =>
    rw [List.map_append, List.map_singleton, List.nodup_append_comm, List.singleton_append,
      List.nodup_cons] at h
    rw [ofList_concat, get?_insert, List.mem_append, List.mem_singleton]
    split_ifs with hk
    · subst hk
      have hout : (p.1, v) ∉ ps := fun hmem => h.1 (List.mem_map.mpr ⟨_, hmem, rfl⟩)
      simp only [Option.some.injEq, hout, false_or]
      constructor
      · rintro rfl
        rfl
      · intro hp
        exact (congrArg Prod.snd hp).symm
    · rw [ih h.2]
      have hne : (k, v) ≠ p := fun hp => hk (by rw [← hp])
      simp [hne]

/-- What a lookup finds was in the list. -/
theorem mem_of_get?_ofList {ps : List (κ × ν)} {k : κ} {v : ν} (h : (ofList ps).get? k = some v) :
    (k, v) ∈ ps := by
  induction ps using List.reverseRecOn with
  | nil => cases h
  | append_singleton ps p ih =>
    rw [ofList_concat, get?_insert] at h
    by_cases hk : k = p.1
    · rw [if_pos hk] at h
      obtain rfl := Option.some.inj h
      exact List.mem_append_right _ (List.mem_singleton.mpr (Prod.ext hk rfl))
    · rw [if_neg hk] at h
      exact List.mem_append_left _ (ih h)

/-! ### Lists indexed by a key of their elements -/

/-- The index of a list is as large as the list exactly when no key repeats. -/
theorem size_index_eq_length_iff {key : ν → κ} {xs : List ν} :
    (ofList (xs.map fun x => (key x, x))).size = xs.length ↔ (xs.map key).Nodup := by
  have hsize := @size_ofList_eq_length_iff κ ν _ (xs.map fun x => (key x, x))
  rwa [List.length_map, List.map_map, Function.comp_def] at hsize

/-- A lookup in the index of a list with distinct keys finds the element with
the key. -/
theorem get?_index {key : ν → κ} {xs : List ν} (h : (xs.map key).Nodup) {k : κ} {x : ν} :
    (ofList (xs.map fun x => (key x, x))).get? k = some x ↔ x ∈ xs ∧ key x = k := by
  have hkeys : ((xs.map fun x => (key x, x)).map Prod.fst).Nodup := by
    rwa [List.map_map, Function.comp_def]
  rw [get?_ofList hkeys, List.mem_map]
  constructor
  · rintro ⟨y, hy, heq⟩
    obtain ⟨rfl, rfl⟩ := Prod.mk.inj heq
    exact ⟨hy, rfl⟩
  · rintro ⟨hx, rfl⟩
    exact ⟨x, hx, rfl⟩

/-- The entries of a map of pairs with distinct keys are the pairs. -/
theorem entries_ofList_perm {ps : List (κ × ν)} (h : (ps.map Prod.fst).Nodup) :
    (ofList ps).entries.Perm ps := by
  refine (List.perm_ext_iff_of_nodup ?_ h.of_map).mpr fun e => ?_
  · exact (nodup_keys (ofList ps)).of_map
  · rw [← get?_ofList h, get?_eq_some_iff]

/-- A key that does not occur again is bound to its value. -/
theorem get?_ofList_cons {ps : List (κ × ν)} {k : κ} {v : ν} (h : k ∉ ps.map Prod.fst) :
    (ofList ((k, v) :: ps)).get? k = some v := by
  induction ps using List.reverseRecOn with
  | nil => simp [ofList, get?_insert]
  | append_singleton ps p ih =>
    rw [List.map_append, List.mem_append, not_or, List.map_singleton, List.mem_singleton] at h
    rw [← List.cons_append, ofList_concat, get?_insert, if_neg h.2, ih h.1]

/-- Erasing a key from a collected map is collecting the other pairs. -/
theorem erase_ofList (ps : List (κ × ν)) (k : κ) :
    (ofList ps).erase k = ofList (ps.filter fun p => p.1 ≠ k) := by
  induction ps using List.reverseRecOn with
  | nil => rfl
  | append_singleton ps p ih =>
    rw [ofList_concat, List.filter_append]
    by_cases hp : p.1 = k
    · have hdrop : [p].filter (fun p => p.1 ≠ k) = [] := by simp [hp]
      rw [hdrop, List.append_nil, ← ih]
      apply ext_get?
      intro k'
      rw [get?_erase, get?_erase, get?_insert]
      split_ifs with h1 h2
      · rfl
      · exact absurd (h2.trans hp) h1
      · rfl
    · have hkeep : [p].filter (fun p => p.1 ≠ k) = [p] := by simp [hp]
      rw [hkeep, ofList_concat, ← ih]
      apply ext_get?
      intro k'
      rw [get?_erase, get?_insert, get?_insert, get?_erase]
      split_ifs with h1 h2
      · exact absurd (h2.symm.trans h1) hp
      · rfl
      · rfl
      · rfl

end SortedMap
