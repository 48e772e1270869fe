import Mathlib.Data.List.Dedup
import Mathlib.Data.List.Nodup

/-!
# Tables of rows

A table is the list of its rows, and a key is a function of a row. The operators are
those a relational query is made of: the rows a unique index admits (`UniqueOn`), the
left join, which keeps a left row without partner once and alone, and the count of the
rows of each key.

A query that only asks whether some joined row satisfies a condition is decided left
row by left row: `exists_mem_leftJoin_iff` for a join, `exists_mem_leftJoin_countBy_iff`
for the join with the counts, where an absent count reads as zero, and
`exists_unmatched_iff` for the rows without partner.
-/

namespace Tables

variable {α β κ : Type} [DecidableEq κ]

/-- The rows have distinct keys. -/
def UniqueOn (key : α → κ) (rows : List α) : Prop := (rows.map key).Nodup

instance (key : α → κ) (rows : List α) : Decidable (UniqueOn key rows) := by
  unfold UniqueOn
  infer_instance

/-- Of rows with different keys, one has the key of a row. -/
theorem UniqueOn.filter_eq {key : α → κ} {rows : List α} (h : UniqueOn key rows) {row : α}
    (hrow : row ∈ rows) : rows.filter (fun other => key other = key row) = [row] := by
  induction rows with
  | nil => cases hrow
  | cons first rows ih =>
    rw [UniqueOn, List.map_cons, List.nodup_cons] at h
    rcases List.mem_cons.mp hrow with heq | hmem
    · have hrest : rows.filter (fun other => key other = key row) = [] := by
        refine List.filter_eq_nil_iff.mpr fun other hother hkey => h.1 ?_
        rw [← heq, ← of_decide_eq_true hkey]
        exact List.mem_map_of_mem hother
      rw [← heq, List.filter_cons, if_pos (decide_eq_true rfl), hrest]
    · have hne : key first ≠ key row := fun hkey => h.1 (hkey ▸ List.mem_map_of_mem hmem)
      rw [List.filter_cons, if_neg fun hkey => hne (of_decide_eq_true hkey), ih h.2 hmem]

theorem UniqueOn.find?_eq {key : α → κ} {rows : List α} (h : UniqueOn key rows) {row : α}
    (hrow : row ∈ rows) : rows.find? (fun other => key other = key row) = some row := by
  rw [← List.head?_filter, h.filter_eq hrow, List.head?_singleton]

/-- Every left row with each right row of its key, or alone when there is none. -/
def leftJoin (left : List α) (right : List β) (leftKey : α → κ) (rightKey : β → κ) :
    List (α × Option β) :=
  left.flatMap fun a =>
    match right.filter fun b => rightKey b = leftKey a with
    | [] => [(a, none)]
    | partner :: partners => (partner :: partners).map fun b => (a, some b)

/-- The keys of a table, each with the number of its rows. -/
def countBy (key : α → κ) (rows : List α) : List (κ × ℕ) :=
  (rows.map key).dedup.map fun k => (k, rows.countP fun row => key row = k)

variable {left : List α} {right : List β} {leftKey : α → κ} {rightKey : β → κ}

theorem mem_leftJoin_some {a : α} {b : β} :
    (a, some b) ∈ leftJoin left right leftKey rightKey ↔
      a ∈ left ∧ b ∈ right ∧ rightKey b = leftKey a := by
  have hfilter : b ∈ right.filter (fun b => rightKey b = leftKey a) ↔
      b ∈ right ∧ rightKey b = leftKey a := by
    rw [List.mem_filter, decide_eq_true_iff]
  rw [leftJoin, List.mem_flatMap, ← hfilter]
  constructor
  · rintro ⟨a', ha', hrow⟩
    split at hrow
    · cases List.mem_singleton.mp hrow
    · next partner partners hpartners =>
      obtain ⟨b', hb', heq⟩ := List.mem_map.mp hrow
      cases heq
      exact ⟨ha', hpartners ▸ hb'⟩
  · rintro ⟨ha, hb⟩
    refine ⟨a, ha, ?_⟩
    split
    · next hnone =>
      rw [hnone] at hb
      cases hb
    · next partner partners hpartners =>
      exact List.mem_map_of_mem (hpartners ▸ hb)

theorem mem_leftJoin_none {a : α} :
    (a, none) ∈ leftJoin left right leftKey rightKey ↔
      a ∈ left ∧ ∀ b ∈ right, rightKey b ≠ leftKey a := by
  have hfilter : right.filter (fun b => rightKey b = leftKey a) = [] ↔
      ∀ b ∈ right, rightKey b ≠ leftKey a := by
    simp only [List.filter_eq_nil_iff, decide_eq_true_iff, ne_eq]
  rw [leftJoin, List.mem_flatMap, ← hfilter]
  constructor
  · rintro ⟨a', ha', hrow⟩
    split at hrow
    · next hnone =>
      cases List.mem_singleton.mp hrow
      exact ⟨ha', hnone⟩
    · obtain ⟨b', -, heq⟩ := List.mem_map.mp hrow
      cases heq
  · rintro ⟨ha, hnone⟩
    refine ⟨a, ha, ?_⟩
    rw [hnone]
    exact List.mem_singleton_self _

/-- What some joined row satisfies, some left row satisfies with a partner or alone. -/
theorem exists_mem_leftJoin_iff {p : α → Option β → Prop} :
    (∃ row ∈ leftJoin left right leftKey rightKey, p row.1 row.2) ↔
      (∃ a ∈ left, ∃ b ∈ right, rightKey b = leftKey a ∧ p a (some b)) ∨
        ∃ a ∈ left, (∀ b ∈ right, rightKey b ≠ leftKey a) ∧ p a none := by
  constructor
  · rintro ⟨⟨a, partner⟩, hrow, hp⟩
    cases partner with
    | none => exact .inr ⟨a, (mem_leftJoin_none.mp hrow).1, (mem_leftJoin_none.mp hrow).2, hp⟩
    | some b =>
      obtain ⟨ha, hb, hkey⟩ := mem_leftJoin_some.mp hrow
      exact .inl ⟨a, ha, b, hb, hkey, hp⟩
  · rintro (⟨a, ha, b, hb, hkey, hp⟩ | ⟨a, ha, hnone, hp⟩)
    · exact ⟨(a, some b), mem_leftJoin_some.mpr ⟨ha, hb, hkey⟩, hp⟩
    · exact ⟨(a, none), mem_leftJoin_none.mpr ⟨ha, hnone⟩, hp⟩

/-- The rows of a left join without partner. -/
theorem exists_unmatched_iff :
    (∃ row ∈ leftJoin left right leftKey rightKey, row.2.isNone) ↔
      ∃ a ∈ left, ∀ b ∈ right, rightKey b ≠ leftKey a := by
  rw [exists_mem_leftJoin_iff (p := fun _ partner => partner.isNone)]
  simp

theorem countP_key_eq_zero {key : β → κ} {k : κ} (h : k ∉ right.map key) :
    right.countP (fun b => key b = k) = 0 := by
  rw [List.countP_eq_zero]
  intro b hb hkey
  rw [decide_eq_true_iff] at hkey
  exact h (hkey ▸ List.mem_map_of_mem hb)

/-- Joined with the counts of a table, a left row meets the number of the rows of its
key, zero where there is none. -/
theorem exists_mem_leftJoin_countBy_iff {key : β → κ} {p : α → ℕ → Prop} :
    (∃ row ∈ leftJoin left (countBy key right) leftKey Prod.fst,
        p row.1 ((row.2.map Prod.snd).getD 0)) ↔
      ∃ a ∈ left, p a (right.countP fun b => key b = leftKey a) := by
  rw [exists_mem_leftJoin_iff (p := fun a partner => p a ((partner.map Prod.snd).getD 0))]
  constructor
  · rintro (⟨a, ha, entry, hentry, hkey, hp⟩ | ⟨a, ha, hnone, hp⟩)
    · obtain ⟨k, -, rfl⟩ := List.mem_map.mp hentry
      obtain rfl : k = leftKey a := hkey
      exact ⟨a, ha, hp⟩
    · refine ⟨a, ha, ?_⟩
      -- a key that is not counted has no rows
      have hmem : leftKey a ∉ right.map key := fun hmem =>
        hnone _ (List.mem_map_of_mem (List.mem_dedup.mpr hmem)) rfl
      rw [countP_key_eq_zero hmem]
      exact hp
  · rintro ⟨a, ha, hp⟩
    by_cases hmem : leftKey a ∈ right.map key
    · exact .inl ⟨a, ha, _, List.mem_map_of_mem (List.mem_dedup.mpr hmem), rfl, hp⟩
    · refine .inr ⟨a, ha, ?_, ?_⟩
      · intro entry hentry heq
        obtain ⟨k, hk, rfl⟩ := List.mem_map.mp hentry
        obtain rfl : k = leftKey a := heq
        exact hmem (List.mem_dedup.mp hk)
      · rwa [countP_key_eq_zero hmem] at hp

end Tables
