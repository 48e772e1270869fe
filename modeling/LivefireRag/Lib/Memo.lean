import LivefireRag.Lib.SortedMap

/-!
# Tables of computed values

A table holds, under keys made from inputs, the values computed for these inputs. It is
faithful when every entry is the value of some input with that key (`Faithful`). When the
key of an input determines its value, a faithful table answers an input with its own value,
whichever input the entry was made for (`Faithful.hit`), and it stays faithful under
further entries.
-/

namespace Memo

variable {α κ ν : Type} [LinearOrder κ] {key : α → κ} {value : α → ν} {inputs inputs' : List α}
  {table : SortedMap κ ν}

/-- Every entry is the value of an input with its key. -/
def Faithful (key : α → κ) (value : α → ν) (inputs : List α) (table : SortedMap κ ν) : Prop :=
  ∀ k v, table.get? k = some v → ∃ x ∈ inputs, key x = k ∧ value x = v

theorem faithful_empty (key : α → κ) (value : α → ν) (inputs : List α) :
    Faithful key value inputs SortedMap.empty := by
  intro k v h
  cases h

theorem Faithful.mono (h : Faithful key value inputs table)
    (hsubset : ∀ x ∈ inputs, x ∈ inputs') : Faithful key value inputs' table := by
  intro k v hget
  obtain ⟨x, hx, hkey, hvalue⟩ := h k v hget
  exact ⟨x, hsubset x hx, hkey, hvalue⟩

theorem Faithful.insert (h : Faithful key value inputs table) {x : α} (hx : x ∈ inputs) :
    Faithful key value inputs (table.insert (key x) (value x)) := by
  intro k v hget
  rw [SortedMap.get?_insert] at hget
  by_cases hk : k = key x
  · rw [if_pos hk] at hget
    exact ⟨x, hx, hk.symm, Option.some.inj hget⟩
  · rw [if_neg hk] at hget
    exact h k v hget

/-- Entries for a list of inputs. -/
theorem Faithful.insertAll (h : Faithful key value inputs table) {xs : List α}
    (hxs : ∀ x ∈ xs, x ∈ inputs) :
    Faithful key value inputs
      (xs.foldl (fun table x => table.insert (key x) (value x)) table) := by
  induction xs generalizing table with
  | nil => exact h
  | cons x xs ih =>
    rw [List.forall_mem_cons] at hxs
    exact ih (h.insert hxs.1) hxs.2

/-- **A hit is right**, when the key determines the value. -/
theorem Faithful.hit (h : Faithful key value inputs table)
    (hkeys : ∀ x ∈ inputs, ∀ y ∈ inputs, key x = key y → value x = value y) {x : α}
    (hx : x ∈ inputs) {v : ν} (hget : table.get? (key x) = some v) : v = value x := by
  obtain ⟨y, hy, hkey, rfl⟩ := h _ _ hget
  exact hkeys y hy x hx hkey

end Memo
