import LivefireRag.Lib.Machine
import LivefireRag.Lib.Text

/-!
# Fields of a text

A text of fields with a separator between them, cut off one after the other from the
left, and numbers in fields.

`splitOnce` is the cut. `split`, which makes all cuts, and `splitn`, which leaves the
rest of the text in the last field, are both read through it
(`split_append_separator`, `splitn_append_separator`).
-/

namespace Text

/-- A text, a separator, and the text that follows. -/
def joined (separator : Char) (head tail : String) : String :=
  head ++ String.singleton separator ++ tail

theorem toList_joined (separator : Char) (head tail : String) :
    (joined separator head tail).toList = head.toList ++ separator :: tail.toList := by
  simp [joined, String.toList_append]

/-- The text before the first separator and the text after it. -/
def splitOnce (separator : Char) (s : String) : Option (String × String) :=
  match s.toList.dropWhile (· ≠ separator) with
  | [] => none
  | _ :: tail => some (String.ofList (s.toList.takeWhile (· ≠ separator)), String.ofList tail)

/-- The pieces of a text, at most `count` of them, the last one uncut. -/
def splitn : ℕ → Char → String → List String
  | 0, _, _ => []
  | 1, _, s => [s]
  | count + 2, separator, s =>
    match splitOnce separator s with
    | none => [s]
    | some (head, tail) => head :: splitn (count + 1) separator tail

section Cut

variable {separator : Char} {head tail s : String}

/-- The cut at the first separator finds what stands around it. -/
theorem splitOnce_joined (h : separator ∉ head.toList) :
    splitOnce separator (joined separator head tail) = some (head, tail) := by
  have hhead : ∀ c ∈ head.toList, decide (c ≠ separator) = true := by
    intro c hc
    simpa using fun heq : c = separator => h (heq ▸ hc)
  have hdrop : (head.toList ++ separator :: tail.toList).dropWhile (· ≠ separator) =
      separator :: tail.toList := by
    rw [List.dropWhile_append_of_pos hhead, List.dropWhile_cons_of_neg (by simp)]
  have htake : (head.toList ++ separator :: tail.toList).takeWhile (· ≠ separator) =
      head.toList := by
    rw [List.takeWhile_append_of_pos hhead, List.takeWhile_cons_of_neg (by simp),
      List.append_nil]
  rw [splitOnce, toList_joined, hdrop, htake]
  simp only [String.ofList_toList]

/-- A text has no separator, or it is cut at the first one. -/
theorem notMem_or_joined (separator : Char) (s : String) :
    separator ∉ s.toList ∨
      ∃ head tail, separator ∉ head.toList ∧ s = joined separator head tail := by
  by_cases hmem : separator ∈ s.toList
  · right
    obtain ⟨before, after, hlist, hbefore⟩ := List.eq_append_cons_of_mem hmem
    refine ⟨String.ofList before, String.ofList after, by rwa [String.toList_ofList], ?_⟩
    apply String.toList_injective
    rw [toList_joined, String.toList_ofList, String.toList_ofList, hlist]
  · exact Or.inl hmem

theorem splitOnce_of_notMem (h : separator ∉ s.toList) : splitOnce separator s = none := by
  have hdrop : s.toList.dropWhile (· ≠ separator) = [] := by
    rw [List.dropWhile_eq_nil_iff]
    intro c hc
    simpa using fun heq : c = separator => h (heq ▸ hc)
  rw [splitOnce, hdrop]

theorem split_append_separator (h : separator ∉ head.toList) :
    split separator (joined separator head tail) = head :: split separator tail := by
  have hcut := @split_append _ _ tail.toList h
  rw [← toList_joined, String.ofList_toList, String.ofList_toList, String.ofList_toList] at hcut
  exact hcut

theorem split_eq_singleton (h : separator ∉ s.toList) : split separator s = [s] := by
  have hpiece := split_of_notMem h
  rwa [String.ofList_toList] at hpiece

theorem splitn_append_separator (count : ℕ) (h : separator ∉ head.toList) :
    splitn (count + 2) separator (joined separator head tail) =
      head :: splitn (count + 1) separator tail := by
  rw [splitn, splitOnce_joined h]

theorem splitn_eq_singleton (count : ℕ) (h : separator ∉ s.toList) :
    splitn (count + 1) separator s = [s] := by
  cases count with
  | zero => rfl
  | succ count => rw [splitn, splitOnce_of_notMem h]

theorem splitn_ne_nil (count : ℕ) : splitn (count + 1) separator s ≠ [] := by
  rcases notMem_or_joined separator s with hfree | ⟨head, tail, hfree, rfl⟩
  · rw [splitn_eq_singleton count hfree]
    exact List.cons_ne_nil _ _
  · cases count with
    | zero => exact List.cons_ne_nil _ _
    | succ count =>
      rw [splitn_append_separator count hfree]
      exact List.cons_ne_nil _ _

theorem split_ne_nil : split separator s ≠ [] := by
  rcases notMem_or_joined separator s with hfree | ⟨head, tail, hfree, rfl⟩
  · rw [split_eq_singleton hfree]
    exact List.cons_ne_nil _ _
  · rw [split_append_separator hfree]
    exact List.cons_ne_nil _ _

/-- One piece: there is nothing to cut. -/
theorem split_eq_one {piece : String} : split separator s = [piece] ↔
    separator ∉ s.toList ∧ s = piece := by
  rcases notMem_or_joined separator s with hfree | ⟨head, tail, hfree, rfl⟩
  · rw [split_eq_singleton hfree, List.singleton_inj]
    exact (and_iff_right hfree).symm
  · have hmem : separator ∈ (joined separator head tail).toList := by
      rw [toList_joined]
      exact List.mem_append_right _ (List.mem_cons_self ..)
    rw [split_append_separator hfree]
    constructor
    · intro h
      rw [List.cons_eq_cons] at h
      exact absurd h.2 split_ne_nil
    · rintro ⟨hnot, -⟩
      exact absurd hmem hnot

/-- More pieces: the first one ends at the first separator. -/
theorem split_eq_cons_cons {first second : String} {pieces : List String} :
    split separator s = first :: second :: pieces ↔
      separator ∉ first.toList ∧ ∃ tail, s = joined separator first tail ∧
        split separator tail = second :: pieces := by
  constructor
  · intro h
    rcases notMem_or_joined separator s with hfree | ⟨head, tail, hfree, rfl⟩
    · rw [split_eq_singleton hfree, List.cons_eq_cons] at h
      exact absurd h.2.symm (List.cons_ne_nil _ _)
    · rw [split_append_separator hfree, List.cons_eq_cons] at h
      obtain ⟨rfl, htail⟩ := h
      exact ⟨hfree, tail, rfl, htail⟩
  · rintro ⟨hfree, tail, rfl, htail⟩
    rw [split_append_separator hfree, htail]

theorem splitn_eq_cons_cons {count : ℕ} {first second : String} {pieces : List String} :
    splitn (count + 2) separator s = first :: second :: pieces ↔
      separator ∉ first.toList ∧ ∃ tail, s = joined separator first tail ∧
        splitn (count + 1) separator tail = second :: pieces := by
  constructor
  · intro h
    rcases notMem_or_joined separator s with hfree | ⟨head, tail, hfree, rfl⟩
    · rw [splitn_eq_singleton (count + 1) hfree, List.cons_eq_cons] at h
      exact absurd h.2.symm (List.cons_ne_nil _ _)
    · rw [splitn_append_separator count hfree, List.cons_eq_cons] at h
      obtain ⟨rfl, htail⟩ := h
      exact ⟨hfree, tail, rfl, htail⟩
  · rintro ⟨hfree, tail, rfl, htail⟩
    rw [splitn_append_separator count hfree, htail]

end Cut

/-! ### Numbers -/

/-- An unsigned number of `w` bits in decimal digits, with an optional plus sign. -/
def parseUnsigned (w : ℕ) (text : String) : Option (Fin (2 ^ w)) :=
  let digits := if text.toList.head? = some '+' then text.toList.tail else text.toList
  if digits = [] ∨ ¬ digits.all Char.isDigit then none
  else Machine.toWidth w (Nat.ofDigitChars 10 digits 0)

/-- A number has no character other than digits and the sign. -/
theorem notMem_of_parseUnsigned {w : ℕ} {text : String} {n : Fin (2 ^ w)} {c : Char}
    (h : parseUnsigned w text = some n) (hdigit : ¬ c.isDigit) (hsign : c ≠ '+') :
    c ∉ text.toList := by
  intro hc
  rw [parseUnsigned] at h
  generalize hdigits : (if text.toList.head? = some '+' then text.toList.tail
    else text.toList) = digits at h
  split at h
  · cases h
  · next hgood =>
    rw [not_or, not_not, List.all_eq_true] at hgood
    refine hdigit (hgood.2 c ?_)
    rw [← hdigits]
    split
    · next hplus =>
      -- the sign is the first character, and `c` is another one
      cases htext : text.toList with
      | nil => simp [htext] at hplus
      | cons first rest =>
        rw [htext, List.head?_cons, Option.some.injEq] at hplus
        rw [htext, hplus, List.mem_cons] at hc
        exact hc.resolve_left hsign
    · exact hc

end Text
