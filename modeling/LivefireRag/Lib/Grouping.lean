import Mathlib.Algebra.Group.Basic
import LivefireRag.Lib.Fallible
import LivefireRag.Lib.SortedMap

/-!
# Grouping values by key

Values that carry a key are collected into a map, values with one key combined
from left to right. When combining is associative, a list may be cut into chunks
that are collected first and combined afterwards (`collect_flatMap_entries`), and a
list sorted by key is collected by combining neighbours (`entries_collect`).

Combining may also fail. `Mergeable` says on which lists of values it does not, and
then collecting with checks gives the same map (`foldlM_upsertM`).
-/

namespace Grouping

variable {κ α ε : Type} [LinearOrder κ] {combine : α → α → α}

/-- The values combined from left to right. -/
def combineAll (combine : α → α → α) : List α → Option α
  | [] => none
  | a :: as => some (as.foldl combine a)

/-- The map with one more value. -/
def upsert (combine : α → α → α) (m : SortedMap κ α) (p : κ × α) : SortedMap κ α :=
  match m.get? p.1 with
  | some a => m.insert p.1 (combine a p.2)
  | none => m.insert p.1 p.2

/-- The map of all values. -/
def collect (combine : α → α → α) (ps : List (κ × α)) : SortedMap κ α :=
  ps.foldl (upsert combine) SortedMap.empty

/-- The values with one key, in order. -/
def valuesOf (k : κ) (ps : List (κ × α)) : List α := (ps.filter (·.1 = k)).map Prod.snd

theorem valuesOf_append (k : κ) (ps qs : List (κ × α)) :
    valuesOf k (ps ++ qs) = valuesOf k ps ++ valuesOf k qs := by
  rw [valuesOf, List.filter_append, List.map_append]
  rfl

theorem valuesOf_cons_of_eq {k : κ} {p : κ × α} (h : p.1 = k) (ps : List (κ × α)) :
    valuesOf k (p :: ps) = p.2 :: valuesOf k ps := by
  rw [valuesOf, List.filter_cons_of_pos (by simpa using h), List.map_cons]
  rfl

theorem valuesOf_cons_self (k : κ) (a : α) (ps : List (κ × α)) :
    valuesOf k ((k, a) :: ps) = a :: valuesOf k ps := valuesOf_cons_of_eq rfl ps

theorem valuesOf_cons_of_ne {k : κ} {p : κ × α} (h : p.1 ≠ k) (ps : List (κ × α)) :
    valuesOf k (p :: ps) = valuesOf k ps := by
  rw [valuesOf, List.filter_cons_of_neg (by simpa using h)]
  rfl

theorem valuesOf_flatten (k : κ) (chunks : List (List (κ × α))) :
    valuesOf k chunks.flatten = chunks.flatMap (valuesOf k) := by
  rw [valuesOf, List.filter_flatten, List.map_flatten, List.map_map]
  rfl

theorem valuesOf_eq_nil {k : κ} {ps : List (κ × α)} (h : ∀ p ∈ ps, p.1 ≠ k) :
    valuesOf k ps = [] := by
  rw [valuesOf, List.filter_eq_nil_iff.mpr fun p hp => by simpa using h p hp, List.map_nil]

theorem mem_valuesOf {k : κ} {ps : List (κ × α)} {a : α} :
    a ∈ valuesOf k ps ↔ (k, a) ∈ ps := by
  rw [valuesOf, List.mem_map]
  constructor
  · rintro ⟨⟨k', a'⟩, hp, rfl⟩
    rw [List.mem_filter, decide_eq_true_eq] at hp
    exact hp.2 ▸ hp.1
  · intro hp
    exact ⟨(k, a), List.mem_filter.mpr ⟨hp, decide_eq_true rfl⟩, rfl⟩

theorem combineAll_concat (combine : α → α → α) (as : List α) (b : α) :
    combineAll combine (as ++ [b]) =
      some (match combineAll combine as with
        | some a => combine a b
        | none => b) := by
  cases as with
  | nil => rfl
  | cons a as => rw [List.cons_append, combineAll, List.foldl_append]; rfl

theorem get?_upsert (m : SortedMap κ α) (p : κ × α) (k : κ) :
    (upsert combine m p).get? k =
      if k = p.1 then
        some (match m.get? k with
          | some a => combine a p.2
          | none => p.2)
      else m.get? k := by
  unfold upsert
  by_cases hk : k = p.1
  · subst hk
    rw [if_pos rfl]
    cases m.get? p.1 with
    | none => rw [SortedMap.get?_insert, if_pos rfl]
    | some a => rw [SortedMap.get?_insert, if_pos rfl]
  · rw [if_neg hk]
    cases m.get? p.1 with
    | none => rw [SortedMap.get?_insert, if_neg hk]
    | some a => rw [SortedMap.get?_insert, if_neg hk]

theorem collect_concat (ps : List (κ × α)) (p : κ × α) :
    collect combine (ps ++ [p]) = upsert combine (collect combine ps) p := by
  rw [collect, List.foldl_append]
  rfl

/-- **What a key is bound to.** -/
theorem get?_collect (ps : List (κ × α)) (k : κ) :
    (collect combine ps).get? k = combineAll combine (valuesOf k ps) := by
  induction ps using List.reverseRecOn with
  | nil => rfl
  | append_singleton ps p ih =>
    rw [collect_concat, get?_upsert, valuesOf_append]
    by_cases hk : k = p.1
    · subst hk
      have hvalues : valuesOf p.1 [p] = [p.2] := valuesOf_cons_of_eq rfl []
      rw [if_pos rfl, hvalues, combineAll_concat, ih]
    · have hvalues : valuesOf k [p] = [] :=
        valuesOf_eq_nil fun q hq => by simpa [List.mem_singleton.mp hq] using Ne.symm hk
      rw [if_neg hk, hvalues, List.append_nil, ih]

/-- Binding a key changes the sum of the values by what the key was bound to. -/
theorem sum_insertEntry {k : κ} {n : ℕ} {es : List (κ × ℕ)}
    (hsorted : es.Pairwise fun a b => a.1 < b.1) :
    ((SortedMap.insertEntry k n es).map Prod.snd).sum +
        ((es.find? fun e => e.1 = k).map Prod.snd).getD 0 =
      (es.map Prod.snd).sum + n := by
  induction es with
  | nil => simp [SortedMap.insertEntry]
  | cons e es ih =>
    obtain ⟨hfirst, hrest⟩ := List.pairwise_cons.mp hsorted
    rw [SortedMap.insertEntry]
    split_ifs with hlt heq
    · -- all keys of the map are greater
      have hnone : (e :: es).find? (fun e => e.1 = k) = none := by
        rw [List.find?_eq_none]
        intro d hd hk
        rw [decide_eq_true_iff] at hk
        rcases List.mem_cons.mp hd with rfl | hd
        · exact absurd hk hlt.ne'
        · exact absurd hk (hlt.trans (hfirst d hd)).ne'
      rw [hnone, List.map_cons, List.sum_cons, Nat.add_comm n]
      rfl
    · have hfound : (e :: es).find? (fun e => e.1 = k) = some e :=
        List.find?_cons_of_pos (decide_eq_true heq.symm)
      rw [hfound, List.map_cons, List.sum_cons, List.map_cons, List.sum_cons, Option.map_some,
        Option.getD_some]
      omega
    · have hnext : (e :: es).find? (fun e => e.1 = k) = es.find? fun e => e.1 = k :=
        List.find?_cons_of_neg fun h => heq (of_decide_eq_true h).symm
      rw [hnext, List.map_cons, List.sum_cons, List.map_cons, List.sum_cons, Nat.add_assoc,
        ih hrest, Nat.add_assoc]

theorem sum_values_upsert (m : SortedMap κ ℕ) (k : κ) (n : ℕ) :
    (upsert (· + ·) m (k, n)).values.sum = m.values.sum + n := by
  have hinsert : ∀ v, (m.insert k v).values.sum + (m.get? k).getD 0 = m.values.sum + v :=
    fun v => sum_insertEntry m.sorted
  unfold upsert
  cases hget : m.get? k with
  | none => simpa [hget] using hinsert n
  | some v =>
    have hsum := hinsert (v + n)
    rw [hget, Option.getD_some] at hsum
    show (m.insert k (v + n)).values.sum = _
    omega

/-- Adding values up key by key keeps their sum. -/
theorem sum_values_collect (ps : List (κ × ℕ)) :
    (collect (· + ·) ps).values.sum = (ps.map Prod.snd).sum := by
  induction ps using List.reverseRecOn with
  | nil => rfl
  | append_singleton ps p ih =>
    rw [collect_concat, sum_values_upsert, ih, List.map_append, List.sum_append]
    rfl

theorem combineAll_eq_none {as : List α} : combineAll combine as = none ↔ as = [] := by
  cases as with
  | nil => exact iff_of_true rfl rfl
  | cons a as => exact iff_of_false nofun nofun

/-- Adding up the values. -/
theorem combineAll_add {M : Type} [AddMonoid M] {values : List M} (h : values ≠ []) :
    combineAll (fun x y => x + y) values = some values.sum := by
  induction values using List.reverseRecOn with
  | nil => exact absurd rfl h
  | append_singleton values value ih =>
    rw [combineAll_concat, List.sum_append, List.sum_singleton]
    by_cases hnil : values = []
    · subst hnil
      rw [List.sum_nil, zero_add]
      rfl
    · rw [ih hnil]

theorem mem_keys_collect {ps : List (κ × α)} {k : κ} :
    k ∈ (collect combine ps).keys ↔ ∃ a, (k, a) ∈ ps := by
  rw [← not_iff_not, ← SortedMap.get?_eq_none_iff, get?_collect, combineAll_eq_none,
    List.eq_nil_iff_forall_not_mem, not_exists]
  exact forall_congr' fun a => not_congr mem_valuesOf

/-- A map depends on the values of each key alone. -/
theorem collect_congr {ps qs : List (κ × α)} (h : ∀ k, valuesOf k ps = valuesOf k qs) :
    collect combine ps = collect combine qs :=
  SortedMap.ext_get? fun k => by rw [get?_collect, get?_collect, h]

/-! ### Chunks -/

/-- Values may be combined in groups. -/
theorem combineAll_append (hassoc : ∀ a b c, combine (combine a b) c = combine a (combine b c))
    {as bs : List α} {a b : α} (ha : combineAll combine as = some a)
    (hb : combineAll combine bs = some b) : combineAll combine (as ++ bs) = some (combine a b) := by
  induction bs using List.reverseRecOn generalizing b with
  | nil => cases hb
  | append_singleton bs c ih =>
    rw [combineAll_concat] at hb
    rw [← List.append_assoc, combineAll_concat]
    cases hbs : combineAll combine bs with
    | none =>
      rw [hbs] at hb
      obtain rfl := Option.some.inj hb
      rw [combineAll_eq_none.mp hbs, List.append_nil, ha]
    | some d =>
      rw [hbs] at hb
      obtain rfl := Option.some.inj hb
      rw [ih hbs]
      exact congrArg some (hassoc a d c)

theorem combineAll_flatten
    (hassoc : ∀ a b c, combine (combine a b) c = combine a (combine b c))
    (groups : List (List α)) :
    combineAll combine (groups.filterMap (combineAll combine)) =
      combineAll combine groups.flatten := by
  induction groups using List.reverseRecOn with
  | nil => rfl
  | append_singleton groups group ih =>
    rw [List.filterMap_append, List.flatten_append, List.flatten_singleton]
    cases hgroup : combineAll combine group with
    | none =>
      rw [List.filterMap_cons_none hgroup, List.filterMap_nil, List.append_nil, ih,
        combineAll_eq_none.mp hgroup, List.append_nil]
    | some b =>
      rw [List.filterMap_cons_some hgroup, List.filterMap_nil, combineAll_concat, ih]
      cases hall : combineAll combine groups.flatten with
      | none => rw [combineAll_eq_none.mp hall, List.nil_append, hgroup]
      | some a => rw [combineAll_append hassoc hall hgroup]

/-- The entries of a collected map hold at most one value of each key. -/
theorem valuesOf_entries (m : SortedMap κ α) (k : κ) :
    valuesOf k m.entries = (m.get? k).toList := by
  have hlength : ((m.entries.filter (·.1 = k)).map Prod.fst).Nodup :=
    m.nodup_keys.sublist (List.filter_sublist.map _)
  cases hget : m.get? k with
  | none =>
    have hout : ∀ p ∈ m.entries, p.1 ≠ k := by
      rintro ⟨k', a⟩ hp rfl
      rw [SortedMap.get?_eq_some_iff.mpr hp] at hget
      cases hget
    exact valuesOf_eq_nil hout
  | some a =>
    have hmem := SortedMap.get?_eq_some_iff.mp hget
    have hfilter : m.entries.filter (·.1 = k) = [(k, a)] := by
      refine List.perm_singleton.mp ((List.perm_ext_iff_of_nodup ?_ (List.nodup_singleton _)).mpr
        fun p => ?_)
      · exact List.Nodup.of_map _ hlength
      · rw [List.mem_filter, List.mem_singleton, decide_eq_true_eq]
        constructor
        · rintro ⟨hp, hk⟩
          have hp' : m.get? p.1 = some p.2 := SortedMap.get?_eq_some_iff.mpr hp
          rw [hk, hget] at hp'
          exact Prod.ext hk (Option.some.inj hp').symm
        · rintro rfl
          exact ⟨hmem, rfl⟩
    rw [valuesOf, hfilter]
    rfl

/-- The values of collected chunks are the combinations of their values. -/
theorem valuesOf_flatMap_entries (chunks : List (List (κ × α))) (k : κ) :
    valuesOf k (chunks.flatMap fun chunk => (collect combine chunk).entries) =
      (chunks.map (valuesOf k)).filterMap (combineAll combine) := by
  rw [List.flatMap_def, valuesOf_flatten, List.flatMap_map, List.filterMap_map,
    List.filterMap_eq_flatMap_toList]
  refine List.flatMap_congr fun chunk _ => ?_
  rw [valuesOf_entries, get?_collect]
  rfl

/-- **Chunks.** A list may be collected chunk by chunk. -/
theorem collect_flatMap_entries
    (hassoc : ∀ a b c, combine (combine a b) c = combine a (combine b c))
    (chunks : List (List (κ × α))) :
    collect combine (chunks.flatMap fun chunk => (collect combine chunk).entries) =
      collect combine chunks.flatten := by
  refine SortedMap.ext_get? fun k => ?_
  rw [get?_collect, get?_collect, valuesOf_flatMap_entries, combineAll_flatten hassoc,
    valuesOf_flatten, List.flatMap_def]

/-! ### Neighbours -/

/-- Neighbours with the key `k` combined, then those with the next key. -/
def groupRuns (combine : α → α → α) (k : κ) (a : α) : List (κ × α) → List (κ × α)
  | [] => [(k, a)]
  | q :: qs =>
    if q.1 = k then groupRuns combine k (combine a q.2) qs
    else (k, a) :: groupRuns combine q.1 q.2 qs

theorem collect_cons_cons_self (k : κ) (a b : α) (qs : List (κ × α)) :
    collect combine ((k, a) :: (k, b) :: qs) = collect combine ((k, combine a b) :: qs) := by
  have hfirst : upsert combine (upsert combine SortedMap.empty (k, a)) (k, b) =
      upsert combine SortedMap.empty (k, combine a b) := by
    refine SortedMap.ext_get? fun k' => ?_
    rw [get?_upsert, get?_upsert, get?_upsert]
    by_cases hk : k' = k
    · rw [if_pos hk, if_pos hk, if_pos hk]
      rfl
    · rw [if_neg hk, if_neg hk, if_neg hk]
  rw [collect, collect, List.foldl_cons, List.foldl_cons, hfirst, List.foldl_cons]

/-- A value whose key is below all others comes first. -/
theorem entries_collect_cons {k : κ} {a : α} {qs : List (κ × α)} (h : ∀ q ∈ qs, k < q.1) :
    (collect combine ((k, a) :: qs)).entries = (k, a) :: (collect combine qs).entries := by
  have hbelow : ∀ e ∈ (collect combine qs).entries, k < e.1 := by
    intro e he
    obtain ⟨b, hb⟩ := mem_keys_collect.mp (List.mem_map_of_mem (f := Prod.fst) he)
    exact h (e.1, b) hb
  let m : SortedMap κ α :=
    ⟨(k, a) :: (collect combine qs).entries,
      List.pairwise_cons.mpr ⟨hbelow, (collect combine qs).sorted⟩⟩
  suffices hm : collect combine ((k, a) :: qs) = m from congrArg SortedMap.entries hm
  refine SortedMap.ext_get? fun k' => Option.ext fun b => ?_
  have hm : m.get? k' = some b ↔ (k', b) = (k, a) ∨ (collect combine qs).get? k' = some b := by
    rw [SortedMap.get?_eq_some_iff, SortedMap.get?_eq_some_iff]
    exact List.mem_cons
  rw [hm, get?_collect, get?_collect]
  by_cases hk : k' = k
  · subst hk
    have hvalues : valuesOf k' qs = [] := valuesOf_eq_nil fun q hq => (h q hq).ne'
    rw [valuesOf_cons_self, hvalues]
    simp [combineAll, eq_comm]
  · rw [valuesOf_cons_of_ne (Ne.symm hk)]
    simp [hk]

/-- **Neighbours.** A list sorted by key is collected by combining neighbours. -/
theorem entries_collect {k : κ} {a : α} {qs : List (κ × α)}
    (h : ((k, a) :: qs).Pairwise fun p q => p.1 ≤ q.1) :
    groupRuns combine k a qs = (collect combine ((k, a) :: qs)).entries := by
  induction qs generalizing k a with
  | nil => rfl
  | cons q qs ih =>
    obtain ⟨hk, hqs⟩ := List.pairwise_cons.mp h
    rw [groupRuns]
    split
    · next heq =>
      obtain ⟨k', b⟩ := q
      obtain rfl : k' = k := heq
      rw [collect_cons_cons_self]
      exact ih (List.pairwise_cons.mpr ⟨(List.pairwise_cons.mp hqs).1, (List.pairwise_cons.mp hqs).2⟩)
    · next hne =>
      have hlt : k < q.1 := lt_of_le_of_ne (hk q List.mem_cons_self) (Ne.symm hne)
      rw [entries_collect_cons fun p hp => ?_, ih hqs]
      rcases List.mem_cons.mp hp with rfl | hp
      · exact hlt
      · exact hlt.trans_le ((List.pairwise_cons.mp hqs).1 p hp)

/-! ### Values that can be combined -/

/-- The lists of values that a checked combination accepts. -/
structure Mergeable (merge : κ → α → α → Except ε α) (combine : α → α → α)
    (good : List α → Prop) : Prop where
  assoc : ∀ a b c, combine (combine a b) c = combine a (combine b c)
  merge_eq : ∀ k a b, good [a, b] → merge k a b = .ok (combine a b)
  sublist : ∀ as bs : List α, good bs → as.Sublist bs → good as
  combine : ∀ as a b bs, good (as ++ a :: b :: bs) → good (as ++ combine a b :: bs)

variable {merge : κ → α → α → Except ε α} {good : List α → Prop}

omit [LinearOrder κ] in
/-- A group of neighbours may be replaced by its combination. -/
theorem Mergeable.combineAll (hmerge : Mergeable merge combine good) {before as after : List α}
    {a : α} (hgood : good (before ++ as ++ after)) (ha : combineAll combine as = some a) :
    good (before ++ a :: after) := by
  induction as using List.reverseRecOn generalizing a after with
  | nil => cases ha
  | append_singleton as b ih =>
    rw [combineAll_concat] at ha
    have hgood' : good (before ++ as ++ b :: after) := by
      rw [← List.append_assoc, List.append_assoc (before ++ as)] at hgood
      exact hgood
    cases has : Grouping.combineAll combine as with
    | none =>
      rw [has] at ha
      obtain rfl := Option.some.inj ha
      rwa [combineAll_eq_none.mp has, List.append_nil] at hgood'
    | some c =>
      rw [has] at ha
      obtain rfl := Option.some.inj ha
      exact hmerge.combine _ _ _ _ (ih hgood' has)

omit [LinearOrder κ] in
/-- The combinations of the groups of a list. -/
theorem Mergeable.filterMap (hmerge : Mergeable merge combine good) {before : List α}
    {groups : List (List α)} (hgood : good (before ++ groups.flatten)) :
    good (before ++ groups.filterMap (Grouping.combineAll combine)) := by
  induction groups generalizing before with
  | nil => exact hgood
  | cons group groups ih =>
    rw [List.flatten_cons, ← List.append_assoc] at hgood
    cases hgroup : Grouping.combineAll combine group with
    | none =>
      rw [combineAll_eq_none.mp hgroup, List.append_nil] at hgood
      rw [List.filterMap_cons_none hgroup]
      exact ih hgood
    | some a =>
      rw [List.filterMap_cons_some hgroup, ← List.singleton_append, ← List.append_assoc]
      refine ih ?_
      rw [List.append_assoc]
      exact hmerge.combineAll hgood hgroup

/-- The map with one more value, combined with checks. -/
def upsertM (merge : κ → α → α → Except ε α) (m : SortedMap κ α) (p : κ × α) :
    Except ε (SortedMap κ α) := do
  match m.get? p.1 with
  | some a => return m.insert p.1 (← merge p.1 a p.2)
  | none => return m.insert p.1 p.2

theorem Mergeable.upsertM_eq (hmerge : Mergeable merge combine good) {ps : List (κ × α)}
    {p : κ × α} (hgood : good (valuesOf p.1 (ps ++ [p]))) :
    upsertM merge (collect combine ps) p = .ok (collect combine (ps ++ [p])) := by
  have hvalues : valuesOf p.1 (ps ++ [p]) = valuesOf p.1 ps ++ [p.2] := by
    rw [valuesOf_append, valuesOf_cons_of_eq rfl]
    rfl
  rw [collect_concat, upsertM, upsert]
  cases hget : (collect combine ps).get? p.1 with
  | none => rfl
  | some a =>
    rw [get?_collect] at hget
    rw [hvalues] at hgood
    have hvalues' : good ([] ++ valuesOf p.1 ps ++ [p.2]) := by rwa [List.nil_append]
    have hpair : good [a, p.2] := hmerge.combineAll hvalues' hget
    show (merge p.1 a p.2 >>= fun b => _) = _
    rw [hmerge.merge_eq p.1 a p.2 hpair]
    rfl

/-- **Collecting with checks.** The checks pass when the values of each key may be
combined. -/
theorem Mergeable.foldlM_upsertM (hmerge : Mergeable merge combine good) (ps qs : List (κ × α))
    (hgood : ∀ k, good (valuesOf k (ps ++ qs))) :
    qs.foldlM (upsertM merge) (collect combine ps) = .ok (collect combine (ps ++ qs)) := by
  induction qs generalizing ps with
  | nil => rw [List.append_nil]; rfl
  | cons q qs ih =>
    have hsplit : ps ++ q :: qs = (ps ++ [q]) ++ qs := by rw [List.append_assoc]; rfl
    have hfirst : good (valuesOf q.1 (ps ++ [q])) := by
      refine hmerge.sublist _ _ (hgood q.1) ?_
      rw [hsplit, valuesOf_append _ (ps ++ [q])]
      exact List.sublist_append_left _ _
    rw [List.foldlM_cons, hmerge.upsertM_eq hfirst]
    show qs.foldlM (upsertM merge) (collect combine (ps ++ [q])) = _
    rw [ih (ps ++ [q]) fun k => by rw [← hsplit]; exact hgood k, ← hsplit]

/-! ### Counting -/

/-- How often each key occurs. -/
def tally (ks : List κ) : SortedMap κ ℕ := collect (· + ·) (ks.map fun k => (k, 1))

/-- One more occurrence of a key. -/
def increment (m : SortedMap κ ℕ) (k : κ) : SortedMap κ ℕ := upsert (· + ·) m (k, 1)

theorem tally_concat (ks : List κ) (k : κ) : tally (ks ++ [k]) = increment (tally ks) k := by
  rw [tally, List.map_append, List.map_singleton, collect_concat]
  rfl

/-- **The count of a key**, for the keys that occur. -/
theorem get?_tally (ks : List κ) (k : κ) :
    (tally ks).get? k = if ks.count k = 0 then none else some (ks.count k) := by
  induction ks using List.reverseRecOn with
  | nil => rfl
  | append_singleton ks k' ih =>
    rw [tally_concat, increment, get?_upsert, ih, List.count_append]
    by_cases hk : k = k'
    · subst hk
      rw [if_pos rfl, List.count_singleton_self, if_neg (Nat.succ_ne_zero _)]
      by_cases hzero : ks.count k = 0
      · rw [if_pos hzero, hzero]
      · rw [if_neg hzero]
    · have hnone : [k'].count k = 0 := List.count_eq_zero.mpr (by simpa using hk)
      rw [if_neg hk, hnone, Nat.add_zero]

/-- The counts add up to the number of occurrences. -/
theorem sum_values_tally (ks : List κ) : (tally ks).values.sum = ks.length := by
  rw [tally, sum_values_collect, List.map_map]
  induction ks with
  | nil => rfl
  | cons k ks ih => rw [List.map_cons, List.sum_cons, ih, List.length_cons, Nat.add_comm]; rfl

end Grouping
