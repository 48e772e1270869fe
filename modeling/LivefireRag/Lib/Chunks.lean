import LivefireRag.Lib.Tiling

/-!
# Equal chunks

A list cut into chunks of one size; what is left over at the end is in no chunk.
Rows of one length laid end to end are found again by their positions
(`segment_flatten`) and all at once (`chunksExact_flatten`).
-/

namespace Chunks

open Tiling

variable {α : Type}

/-- The chunks of the given size. -/
def chunksExact (size : ℕ) (xs : List α) : List (List α) :=
  (List.range (xs.length / size)).map fun i => segment xs (i * size) ((i + 1) * size)

/-- A field between two others, found by its position. -/
theorem segment_field {before field after : List α} {a b : ℕ} (ha : before.length = a)
    (hb : a + field.length = b) : segment (before ++ (field ++ after)) a b = field := by
  have hlength : b - a = field.length := by omega
  rw [Tiling.segment, hlength, ← ha, List.drop_left, List.take_left]

theorem length_flatten_of_length {rows : List (List α)} {size : ℕ}
    (h : ∀ row ∈ rows, row.length = size) : rows.flatten.length = rows.length * size := by
  rw [List.length_flatten, List.map_congr_left h, List.map_const', List.sum_replicate_nat]

/-- A row is the segment at its position. -/
theorem segment_flatten {rows : List (List α)} {size i : ℕ} {row : List α}
    (h : ∀ row ∈ rows, row.length = size) (hrow : rows[i]? = some row) :
    segment rows.flatten (i * size) ((i + 1) * size) = row := by
  have hsize : (i + 1) * size - i * size = size := by
    rw [Nat.add_mul, Nat.one_mul, Nat.add_sub_cancel_left]
  rw [Tiling.segment, hsize]
  induction rows generalizing i with
  | nil => cases hrow
  | cons first rows ih =>
    obtain ⟨hfirst, hrows⟩ := List.forall_mem_cons.mp h
    cases i with
    | zero =>
      obtain rfl := Option.some.inj hrow
      rw [Nat.zero_mul, List.drop_zero, List.flatten_cons, List.take_left' hfirst]
    | succ i =>
      have hdrop : (i + 1) * size = first.length + i * size := by
        rw [hfirst, Nat.add_mul, Nat.one_mul, Nat.add_comm]
      rw [List.flatten_cons, hdrop, ← List.drop_drop, List.drop_left]
      refine ih hrows hrow ?_
      rw [Nat.add_mul, Nat.one_mul, Nat.add_sub_cancel_left]

/-- **Cutting undoes laying end to end.** -/
theorem chunksExact_flatten {rows : List (List α)} {size : ℕ} (hsize : 0 < size)
    (h : ∀ row ∈ rows, row.length = size) : chunksExact size rows.flatten = rows := by
  rw [chunksExact, length_flatten_of_length h, Nat.mul_div_cancel _ hsize]
  refine List.ext_getElem? fun i => ?_
  rw [List.getElem?_map]
  by_cases hi : i < rows.length
  · rw [List.getElem?_range hi, Option.map_some, List.getElem?_eq_getElem hi,
      segment_flatten h (List.getElem?_eq_getElem hi)]
  · rw [List.getElem?_eq_none (by rw [List.length_range]; exact not_lt.mp hi),
      List.getElem?_eq_none (not_lt.mp hi), Option.map_none]

theorem length_of_mem_chunksExact {xs chunk : List α} {size : ℕ}
    (h : chunk ∈ chunksExact size xs) : chunk.length = size := by
  obtain ⟨i, hi, rfl⟩ := List.mem_map.mp h
  have hle : (i + 1) * size ≤ xs.length :=
    (Nat.mul_le_mul_right size (List.mem_range.mp hi)).trans (Nat.div_mul_le_self _ _)
  rw [length_segment hle, Nat.add_mul, Nat.one_mul, Nat.add_sub_cancel_left]

@[simp] theorem length_chunksExact (size : ℕ) (xs : List α) :
    (chunksExact size xs).length = xs.length / size := by
  rw [chunksExact, List.length_map, List.length_range]

/-- **Laying end to end undoes cutting** where nothing is left over. -/
theorem flatten_chunksExact {xs : List α} {size n : ℕ} (hsize : 0 < size)
    (h : xs.length = n * size) : (chunksExact size xs).flatten = xs := by
  have hprefix : ∀ m, m ≤ n →
      ((List.range m).map fun i => segment xs (i * size) ((i + 1) * size)).flatten =
        segment xs 0 (m * size) := by
    intro m hm
    induction m with
    | zero => simp
    | succ m ih =>
      rw [List.range_succ, List.map_append, List.flatten_append, ih (by omega), List.map_singleton,
        List.flatten_singleton]
      exact segment_append (Nat.zero_le _) (Nat.mul_le_mul_right size (Nat.le_succ m))
  rw [chunksExact, h, Nat.mul_div_cancel _ hsize, hprefix n le_rfl, ← h, segment_zero_length]

/-! ### Chunks with a shorter last one -/

/-- The chunks of at most the given size; only the last may be shorter. -/
def chunks (size : ℕ) (xs : List α) : List (List α) :=
  (List.range ((xs.length + size - 1) / size)).map fun i => (xs.drop (i * size)).take size

/-- The chunks laid end to end are the list. -/
theorem flatten_chunks {size : ℕ} (hsize : 0 < size) (xs : List α) :
    (chunks size xs).flatten = xs := by
  have hprefix : ∀ m, ((List.range m).map fun i => (xs.drop (i * size)).take size).flatten =
      xs.take (m * size) := by
    intro m
    induction m with
    | zero => simp
    | succ m ih =>
      rw [List.range_succ, List.map_append, List.flatten_append, ih, Nat.succ_mul, List.take_add]
      simp
  rw [chunks, hprefix, List.take_of_length_le]
  have hdiv := Nat.div_add_mod (xs.length + size - 1) size
  have hmod := Nat.mod_lt (xs.length + size - 1) hsize
  rw [Nat.mul_comm] at hdiv
  omega

theorem mem_of_mem_chunks {size : ℕ} {xs chunk : List α} {x : α} (hchunk : chunk ∈ chunks size xs)
    (hx : x ∈ chunk) : x ∈ xs := by
  obtain ⟨i, -, rfl⟩ := List.mem_map.mp hchunk
  exact List.mem_of_mem_drop (List.mem_of_mem_take hx)

end Chunks
