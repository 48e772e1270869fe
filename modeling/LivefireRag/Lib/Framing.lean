import Mathlib.Data.List.Basic
import Mathlib.Data.List.Flatten

/-!
# Terminated fields

A list of fields framed by a terminator after each of them. The frame can be read
back when no field contains the terminator. When fields may contain it, the frame
still determines the pieces into which the terminators cut it
(`splitOn_terminated`), and nothing but the number of pieces of each field is lost
(`terminated_inj_of_count`).
-/

namespace Framing

variable {α : Type} [DecidableEq α]

/-- The fields, each followed by the terminator. -/
def terminated (sep : α) (fields : List (List α)) : List α := fields.flatMap (· ++ [sep])

omit [DecidableEq α] in
@[simp] theorem terminated_nil (sep : α) : terminated sep [] = [] := rfl

omit [DecidableEq α] in
theorem terminated_cons (sep : α) (field : List α) (fields : List (List α)) :
    terminated sep (field :: fields) = field ++ sep :: terminated sep fields := by
  rw [terminated, List.flatMap_cons, List.append_assoc]
  rfl

omit [DecidableEq α] in
theorem terminated_append (sep : α) (fields others : List (List α)) :
    terminated sep (fields ++ others) = terminated sep fields ++ terminated sep others :=
  List.flatMap_append

/-- The pieces of a frame are those of its fields, and an empty one at the end. -/
theorem splitOn_terminated (sep : α) (fields : List (List α)) :
    (terminated sep fields).splitOn sep = fields.flatMap (·.splitOn sep) ++ [[]] := by
  induction fields with
  | nil => rfl
  | cons field fields ih =>
    rw [terminated_cons, List.splitOn_append_cons_self, ih, List.flatMap_cons, List.append_assoc]

/-- A field has one more piece than it has terminators. -/
theorem length_splitOn (sep : α) (field : List α) :
    (field.splitOn sep).length = field.count sep + 1 := by
  induction field with
  | nil => rfl
  | cons a field ih =>
    rw [List.splitOn_cons_eq_if_modifyHead]
    by_cases ha : a = sep
    · rw [if_pos (beq_iff_eq.mpr ha), List.length_cons, ih, ha, List.count_cons_self]
    · rw [if_neg (by simpa using ha), List.length_modifyHead, ih, List.count_cons_of_ne ha]

theorem splitOn_injective (sep : α) : Function.Injective (List.splitOn sep (α := α)) := by
  intro field field' h
  calc field = [sep].intercalate (field.splitOn sep) := (List.intercalate_splitOn sep).symm
    _ = [sep].intercalate (field'.splitOn sep) := by rw [h]
    _ = field' := List.intercalate_splitOn sep

theorem notMem_of_mem_splitOn {separator : α} {xs piece : List α}
    (h : piece ∈ xs.splitOn separator) : separator ∉ piece := by
  induction xs generalizing piece with
  | nil =>
    obtain rfl : piece = [] := by simpa using h
    exact List.not_mem_nil
  | cons x xs ih =>
    rw [List.splitOn_cons_eq_if_modifyHead] at h
    split at h
    · rcases List.mem_cons.mp h with rfl | h
      · exact List.not_mem_nil
      · exact ih h
    · next hx =>
      cases hsplit : xs.splitOn separator with
      | nil => exact absurd hsplit (List.splitOn_ne_nil _ _)
      | cons first rest =>
        rw [hsplit, List.modifyHead_cons] at h
        rcases List.mem_cons.mp h with rfl | h
        · intro hmem
          rcases List.mem_cons.mp hmem with rfl | hmem
          · exact hx (beq_self_eq_true _)
          · exact ih (hsplit ▸ List.mem_cons_self ..) hmem
        · exact ih (hsplit ▸ List.mem_cons_of_mem _ h)

omit [DecidableEq α] in
theorem mem_intercalate {sep a : α} {pieces : List (List α)} (h : a ≠ sep) :
    a ∈ [sep].intercalate pieces ↔ ∃ piece ∈ pieces, a ∈ piece := by
  induction pieces with
  | nil => simp [List.intercalate_nil]
  | cons piece pieces ih =>
    rw [List.exists_mem_cons_iff, ← ih]
    cases pieces with
    | nil => simp [List.intercalate_singleton, List.intercalate_nil]
    | cons second pieces =>
      rw [List.intercalate_cons_cons, List.append_assoc, List.mem_append, List.mem_append,
        List.mem_singleton, or_iff_right h]

/-- **Reading a frame back.** Frames are equal when the pieces of the fields are,
and the fields are equal when, moreover, they contain equally many terminators. -/
theorem terminated_eq_iff {sep : α} {fields fields' : List (List α)} :
    terminated sep fields = terminated sep fields' ↔
      fields.flatMap (·.splitOn sep) = fields'.flatMap (·.splitOn sep) := by
  constructor
  · intro h
    have hpieces := congrArg (List.splitOn sep) h
    rw [splitOn_terminated, splitOn_terminated] at hpieces
    exact List.append_cancel_right hpieces
  · intro h
    apply splitOn_injective sep
    rw [splitOn_terminated, splitOn_terminated, h]

theorem terminated_inj_of_count {sep : α} {fields fields' : List (List α)}
    (hcount : fields.map (List.count sep) = fields'.map (List.count sep))
    (h : terminated sep fields = terminated sep fields') : fields = fields' := by
  have hpieces := terminated_eq_iff.mp h
  rw [List.flatMap_def, List.flatMap_def] at hpieces
  have hlengths : ∀ fields : List (List α), (fields.map (·.splitOn sep)).map List.length =
      (fields.map (List.count sep)).map (· + 1) := by
    intro fields
    rw [List.map_map, List.map_map]
    exact List.map_congr_left fun field _ => length_splitOn sep field
  have hmap : fields.map (·.splitOn sep) = fields'.map (·.splitOn sep) :=
    List.eq_iff_flatten_eq.mpr ⟨hpieces, by rw [hlengths, hlengths, hcount]⟩
  exact List.map_injective_iff.mpr (splitOn_injective sep) hmap

/-! ### Bracketed lists -/

/-- Pieces with a separator between them, between two brackets. -/
def bracketed (opening closing sep : α) (pieces : List (List α)) : List α :=
  opening :: [sep].intercalate pieces ++ [closing]

omit [DecidableEq α] in
theorem intercalate_ne_nil {sep : α} {pieces : List (List α)} (hne : pieces ≠ [])
    (h : ∀ piece ∈ pieces, piece ≠ []) : [sep].intercalate pieces ≠ [] := by
  cases pieces with
  | nil => exact absurd rfl hne
  | cons piece pieces =>
    intro hnil
    cases pieces with
    | nil =>
      rw [List.intercalate_singleton] at hnil
      exact h piece List.mem_cons_self hnil
    | cons second pieces =>
      rw [List.intercalate_cons_cons, List.append_assoc] at hnil
      exact h piece List.mem_cons_self (List.append_eq_nil_iff.mp hnil).1

/-- Pieces that are not empty and do not contain the separator are read back. -/
theorem intercalate_inj {sep : α} {pieces pieces' : List (List α)}
    (h : ∀ piece ∈ pieces, piece ≠ [] ∧ sep ∉ piece)
    (h' : ∀ piece ∈ pieces', piece ≠ [] ∧ sep ∉ piece)
    (heq : [sep].intercalate pieces = [sep].intercalate pieces') : pieces = pieces' := by
  by_cases hnil : pieces = []
  · subst hnil
    by_contra hne
    exact intercalate_ne_nil (Ne.symm hne) (fun piece hpiece => (h' piece hpiece).1) heq.symm
  · have hnil' : pieces' ≠ [] := by
      rintro rfl
      exact intercalate_ne_nil hnil (fun piece hpiece => (h piece hpiece).1) heq
    calc pieces
      _ = ([sep].intercalate pieces).splitOn sep :=
        (List.splitOn_intercalate sep (fun piece hpiece => (h piece hpiece).2) hnil).symm
      _ = ([sep].intercalate pieces').splitOn sep := by rw [heq]
      _ = pieces' := List.splitOn_intercalate sep (fun piece hpiece => (h' piece hpiece).2) hnil'

omit [DecidableEq α] in
/-- With one more separator in front, pieces that end in a bracket are terminated fields. -/
theorem cons_intercalate_eq_terminated {sep closing : α} {bodies : List (List α)}
    (h : bodies ≠ []) : sep :: [sep].intercalate (bodies.map (· ++ [closing])) =
      terminated closing (bodies.map (sep :: ·)) := by
  induction bodies with
  | nil => exact absurd rfl h
  | cons body bodies ih =>
    cases bodies with
    | nil => simp [List.intercalate_singleton, terminated]
    | cons second bodies =>
      rw [List.map_cons, List.map_cons, List.intercalate_cons_cons, List.map_cons, terminated_cons,
        ← ih (List.cons_ne_nil _ _)]
      simp

/-- Pieces may contain the separator where each of them ends in a bracket of its own. -/
theorem intercalate_closed_inj {sep closing : α} {bodies bodies' : List (List α)}
    (hsep : sep ≠ closing) (h : ∀ body ∈ bodies, closing ∉ body)
    (h' : ∀ body ∈ bodies', closing ∉ body)
    (heq : [sep].intercalate (bodies.map (· ++ [closing])) =
      [sep].intercalate (bodies'.map (· ++ [closing]))) : bodies = bodies' := by
  have hpiece : ∀ bodies : List (List α), ∀ piece ∈ bodies.map (· ++ [closing]), piece ≠ [] := by
    intro bodies piece hmem
    obtain ⟨body, -, rfl⟩ := List.mem_map.mp hmem
    exact List.append_ne_nil_of_right_ne_nil _ (List.cons_ne_nil _ _)
  by_cases hnil : bodies = []
  · subst hnil
    by_contra hne
    refine intercalate_ne_nil ?_ (hpiece bodies') heq.symm
    exact fun hmap => hne (List.map_eq_nil_iff.mp hmap).symm
  have hnil' : bodies' ≠ [] := by
    rintro rfl
    exact intercalate_ne_nil (fun hmap => hnil (List.map_eq_nil_iff.mp hmap)) (hpiece bodies) heq
  have hterminated : terminated closing (bodies.map (sep :: ·)) =
      terminated closing (bodies'.map (sep :: ·)) := by
    rw [← cons_intercalate_eq_terminated hnil, ← cons_intercalate_eq_terminated hnil', heq]
  have hcount : ∀ bodies : List (List α), (∀ body ∈ bodies, closing ∉ body) →
      (bodies.map (sep :: ·)).flatMap (·.splitOn closing) = bodies.map (sep :: ·) := by
    intro bodies hfree
    rw [List.flatMap_map, ← List.flatMap_singleton' (bodies.map (sep :: ·)), List.flatMap_map]
    refine List.flatMap_congr fun body hbody => List.splitOn_eq_singleton ?_
    rw [List.mem_cons, not_or]
    exact ⟨Ne.symm hsep, hfree body hbody⟩
  have hmap := terminated_eq_iff.mp hterminated
  rw [hcount bodies h, hcount bodies' h'] at hmap
  exact List.map_injective_iff.mpr (fun _ _ hcons => (List.cons.inj hcons).2) hmap

end Framing
