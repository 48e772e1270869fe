import Mathlib.Data.List.DropRight
import Mathlib.Data.String.Basic

/-!
# Text

Strings as their characters and as their UTF-8 bytes, splitting at a separator,
and non-overlapping occurrences of a pattern found from left to right.
-/

namespace Text

/-- What is said of every character of a text is decided along the text. -/
instance (priority := 2000) decidableForallMem (cs : List Char) (p : Char → Prop)
    [DecidablePred p] : Decidable (∀ c ∈ cs, p c) :=
  List.decidableBAll p cs

instance (priority := 2000) decidableExistsMem (cs : List Char) (p : Char → Prop)
    [DecidablePred p] : Decidable (∃ c ∈ cs, p c) :=
  List.decidableBEx p cs

/-! ### The classes of letters by their code points -/

theorem isUpper_iff {c : Char} : c.isUpper ↔ 65 ≤ c.val ∧ c.val ≤ 90 :=
  Iff.trans Iff.rfl (decide_eq_true_iff (p := 65 ≤ c.val ∧ c.val ≤ 90))

theorem isLower_iff {c : Char} : c.isLower ↔ 97 ≤ c.val ∧ c.val ≤ 122 := by
  refine Iff.trans ?_ (Bool.and_eq_true_iff.trans (and_congr decide_eq_true_iff decide_eq_true_iff))
  exact Iff.rfl

theorem isAlphanum_iff {c : Char} : c.isAlphanum ↔ (c.isUpper ∨ c.isLower) ∨ c.isDigit := by
  refine Iff.trans ?_ (Bool.or_eq_true_iff.trans (or_congr_left Bool.or_eq_true_iff))
  exact Iff.rfl

/-- The UTF-8 bytes of a string. -/
def utf8 (s : String) : List UInt8 := s.toUTF8.data.toList

/-- The string with the given UTF-8 bytes. -/
def fromUtf8 (bytes : List UInt8) : Option String := String.fromUTF8? ⟨bytes.toArray⟩

/-- The bytes of a string are those of its characters. -/
theorem utf8_eq_flatMap (s : String) : utf8 s = s.toList.flatMap String.utf8EncodeChar := by
  have hencode : s.toList.utf8Encode = s.toByteArray := String.utf8Encode_toList
  rw [utf8, String.toUTF8, ← hencode, List.utf8Encode, List.toList_data_toByteArray]

theorem utf8_append (s t : String) : utf8 (s ++ t) = utf8 s ++ utf8 t := by
  simp only [utf8_eq_flatMap, String.toList_append, List.flatMap_append]

theorem utf8_injective : Function.Injective utf8 := by
  intro s t h
  apply String.toByteArray_inj.mp
  apply ByteArray.ext
  exact Array.toList_inj.mp h

/-- Decoding the bytes of a string gives it back. -/
theorem fromUtf8_utf8 (s : String) : fromUtf8 (utf8 s) = some s := by
  have hbytes : (⟨(utf8 s).toArray⟩ : ByteArray) = s.toByteArray := by
    rw [utf8, Array.toArray_toList]
    rfl
  rw [fromUtf8, hbytes, String.fromUTF8?, dif_pos s.isValidUTF8]
  exact congrArg some (String.toByteArray_inj.mp rfl)

/-- A string has at least as many bytes as characters. -/
theorem length_le_length_utf8 (s : String) : s.toList.length ≤ (utf8 s).length := by
  rw [utf8_eq_flatMap, List.length_flatMap]
  induction s.toList with
  | nil => exact le_rfl
  | cons c cs ih =>
    have hpos : 0 < (String.utf8EncodeChar c).length := by
      rw [String.length_utf8EncodeChar]
      exact c.utf8Size_pos
    rw [List.map_cons, List.sum_cons, List.length_cons]
    omega

/-- The pieces of a string between the occurrences of a separator. -/
def split (separator : Char) (s : String) : List String :=
  (s.toList.splitOn separator).map String.ofList

/-- A string without the separator is its only piece. -/
theorem split_of_notMem {separator : Char} {cs : List Char} (h : separator ∉ cs) :
    split separator (String.ofList cs) = [String.ofList cs] := by
  have hsplit := @List.splitOn_intercalate _ [cs] _ _ separator (by simpa using h) (by simp)
  rw [split, String.toList_ofList]
  simpa using congrArg (List.map String.ofList) hsplit

/-- Splitting at the first occurrence of the separator. -/
theorem split_append {separator : Char} {cs ds : List Char} (h : separator ∉ cs) :
    split separator (String.ofList (cs ++ separator :: ds)) =
      String.ofList cs :: split separator (String.ofList ds) := by
  have hfirst : (cs ++ separator :: ds).splitOn separator = cs :: ds.splitOn separator :=
    List.splitOnP_append_cons_of_forall_mem
      (fun c hc => by simpa using fun heq : c = separator => h (heq ▸ hc))
      separator (by simp) ds
  rw [split, split, String.toList_ofList, String.toList_ofList, hfirst, List.map_cons]

/-- A line without the carriage return before its line feed. -/
def stripCarriageReturn (line : String) : String :=
  if line.toList.getLast? = some '\r' then String.ofList line.toList.dropLast else line

/-- The lines of a text. A line ends with a line feed, or with the text. -/
def lines (text : String) : List String :=
  match (split '\n' text).reverse with
  | [] => []
  | last :: before =>
    before.reverse.map stripCarriageReturn ++ if last = "" then [] else [last]

/-- The characters with the White_Space property. -/
def IsWhiteSpace (c : Char) : Prop :=
  0x09 ≤ c.toNat ∧ c.toNat ≤ 0x0d ∨ c.toNat ∈ [0x20, 0x85, 0xa0, 0x1680] ∨
    0x2000 ≤ c.toNat ∧ c.toNat ≤ 0x200a ∨ c.toNat ∈ [0x2028, 0x2029, 0x202f, 0x205f, 0x3000]

instance : DecidablePred IsWhiteSpace := fun c => by unfold IsWhiteSpace; infer_instance

/-- A text of white space, which trimming leaves empty. -/
def IsBlank (s : String) : Prop := ∀ c ∈ s.toList, IsWhiteSpace c

instance : DecidablePred IsBlank := fun s => by unfold IsBlank; infer_instance

/-- Texts between the same prefix and suffix. -/
theorem append_cancel {directory suffix a b : String}
    (h : directory ++ a ++ suffix = directory ++ b ++ suffix) : a = b := by
  have hchars := congrArg String.toList h
  simp only [String.toList_append, List.append_cancel_right_eq,
    List.append_cancel_left_eq] at hchars
  exact String.toList_injective hchars

theorem utf8Size_eq_one {c : Char} (h : c.toNat ≤ 127) : c.utf8Size = 1 := by
  have hval : c.val ≤ 127 := h
  simp [Char.utf8Size, hval]

/-- An ASCII text has as many bytes as characters. -/
theorem utf8ByteSize_ofList {cs : List Char} (h : ∀ c ∈ cs, c.toNat ≤ 127) :
    (String.ofList cs).utf8ByteSize = cs.length := by
  induction cs with
  | nil => rfl
  | cons c cs ih =>
    rw [List.forall_mem_cons] at h
    rw [String.ofList_cons, String.utf8ByteSize_append, String.utf8ByteSize_singleton,
      utf8Size_eq_one h.1, ih h.2, List.length_cons, Nat.add_comm]

/-- The bytes of an ASCII text are its characters. -/
theorem utf8_of_ascii {s : String} (h : ∀ c ∈ s.toList, c.toNat ≤ 127) :
    utf8 s = s.toList.map fun c => UInt8.ofNat c.toNat := by
  rw [utf8_eq_flatMap]
  generalize s.toList = cs at h ⊢
  induction cs with
  | nil => rfl
  | cons c cs ih =>
    rw [List.forall_mem_cons] at h
    have hchar : String.utf8EncodeChar c = [UInt8.ofNat c.toNat] := if_pos h.1
    rw [List.flatMap_cons, List.map_cons, hchar, ih h.2, List.singleton_append]

/-- A character of more than one byte starts with a byte that is not ASCII. -/
theorem toNat_le_of_utf8EncodeChar {c : Char} (h : ∀ byte ∈ String.utf8EncodeChar c, byte < 128) :
    c.toNat ≤ 127 := by
  have hbig : ∀ n, 128 ≤ n → n < 256 → ¬ UInt8.ofNat n < 128 := by
    intro n hlow hhigh hlt
    have hvalue : (UInt8.ofNat n).toNat = n := UInt8.toNat_ofNat_of_lt' hhigh
    have hlt : (UInt8.ofNat n).toNat < 128 := UInt8.lt_iff_toNat_lt.mp hlt
    omega
  by_contra hc
  have hval : ¬ c.val.toNat ≤ 127 := hc
  simp only [String.utf8EncodeChar, hval, if_false] at h
  split at h
  · exact hbig _ (by omega) (by omega) (h _ (List.mem_cons_self ..))
  · split at h
    · exact hbig _ (by omega) (by omega) (h _ (List.mem_cons_self ..))
    · exact hbig _ (by omega) (by omega) (h _ (List.mem_cons_self ..))

/-- A text whose bytes are ASCII has ASCII characters. -/
theorem ascii_of_utf8 {s : String} (h : ∀ byte ∈ utf8 s, byte < 128) :
    ∀ c ∈ s.toList, c.toNat ≤ 127 := by
  intro c hc
  rw [utf8_eq_flatMap] at h
  exact toNat_le_of_utf8EncodeChar fun byte hbyte =>
    h byte (List.mem_flatMap.mpr ⟨c, hc, hbyte⟩)

theorem length_utf8 (s : String) : (utf8 s).length = s.utf8ByteSize := by
  rw [utf8, Array.length_toList]
  rfl

/-! ### Padded decimals -/

/-- A number in decimal, padded with zeros to a width. -/
def zeroPadded (width n : ℕ) : String :=
  String.ofList (List.replicate (width - (Nat.toDigits 10 n).length) '0' ++ Nat.toDigits 10 n)

/-- Padding does not change the number that is read back. -/
theorem zeroPadded_injective (width : ℕ) : Function.Injective (zeroPadded width) := by
  intro m n h
  have hchars := congrArg (fun s : String => Nat.ofDigitChars 10 s.toList 0) h
  simpa only [zeroPadded, String.toList_ofList, Nat.ofDigitChars_append,
    Nat.ofDigitChars_replicate_zero, Nat.mul_zero, Nat.ofDigitChars_ten_toDigits] using hchars

/-- Every character of a padded decimal is a digit. -/
theorem isDigit_of_mem_zeroPadded {width n : ℕ} {c : Char} (h : c ∈ (zeroPadded width n).toList) :
    c.isDigit := by
  rw [zeroPadded, String.toList_ofList, List.mem_append] at h
  rcases h with h | h
  · rw [(List.mem_replicate.mp h).2]
    rfl
  · exact Nat.isDigit_of_mem_toDigits (by decide) (by decide) h

theorem length_zeroPadded_le {width n k : ℕ} (hwidth : width ≤ k) (hk : 0 < k) (h : n < 10 ^ k) :
    (zeroPadded width n).toList.length ≤ k := by
  have hdigits := (Nat.length_toDigits_le_iff (by decide : 1 < 10) hk).mpr h
  rw [zeroPadded, String.toList_ofList, List.length_append, List.length_replicate]
  omega

example : zeroPadded 4 7 = "0007" := by decide

/-! ### Occurrences of a pattern

The scans carry the number of characters still covered by the last match. -/

/-- The number of non-overlapping occurrences of `pattern` past the next `skip`
characters. -/
def countFrom (pattern : List Char) : ℕ → List Char → ℕ
  | _, [] => 0
  | skip + 1, _ :: cs => countFrom pattern skip cs
  | 0, c :: cs =>
    if pattern.isPrefixOf (c :: cs) then countFrom pattern (pattern.length - 1) cs + 1
    else countFrom pattern 0 cs

/-- The characters with every occurrence of `pattern` past the next `skip`
characters replaced. -/
def replaceFrom (pattern replacement : List Char) : ℕ → List Char → List Char
  | _, [] => []
  | skip + 1, _ :: cs => replaceFrom pattern replacement skip cs
  | 0, c :: cs =>
    if pattern.isPrefixOf (c :: cs) then
      replacement ++ replaceFrom pattern replacement (pattern.length - 1) cs
    else c :: replaceFrom pattern replacement 0 cs

/-- The number of non-overlapping occurrences of a non-empty pattern. -/
def countMatches (s pattern : String) : ℕ := countFrom pattern.toList 0 s.toList

/-- The string with each occurrence of a non-empty pattern replaced. -/
def replace (s pattern replacement : String) : String :=
  String.ofList (replaceFrom pattern.toList replacement.toList 0 s.toList)

/-- Replacing a single character. -/
theorem replaceFrom_singleton (c : Char) (replacement cs : List Char) :
    replaceFrom [c] replacement 0 cs = cs.flatMap fun d => if d = c then replacement else [d] := by
  induction cs with
  | nil => rfl
  | cons d cs ih =>
    rw [replaceFrom, List.flatMap_cons]
    by_cases h : d = c
    · have hprefix : [c].isPrefixOf (d :: cs) = true := by simp [h]
      rw [if_pos hprefix, if_pos h]
      exact congrArg (replacement ++ ·) ih
    · have hprefix : ¬ [c].isPrefixOf (d :: cs) = true := by simpa using fun heq => h heq.symm
      rw [if_neg hprefix, if_neg h, ih]
      rfl

example : replace "passage: {x}" "{x}" "abc" = "passage: abc" := by decide

/-! ### Cutting at the ends -/

/-- The string after a given start. -/
def stripStart (start s : String) : Option String :=
  if start.toList <+: s.toList then some (String.ofList (s.toList.drop start.toList.length))
  else none

theorem stripStart_eq_some {start s rest : String} :
    stripStart start s = some rest ↔ s = start ++ rest := by
  rw [← String.toList_inj, String.toList_append, stripStart]
  constructor
  · intro h
    split at h
    · next hstart =>
      obtain ⟨tail, htail⟩ := hstart
      rw [← htail, List.drop_left] at h
      rw [← htail, ← Option.some.inj h, String.toList_ofList]
    · cases h
  · intro h
    rw [if_pos ⟨rest.toList, h.symm⟩, h, List.drop_left, String.ofList_toList]

/-- The string before a given ending. -/
def stripEnding (ending s : String) : Option String :=
  if ending.toList <:+ s.toList then
    some (String.ofList (s.toList.take (s.toList.length - ending.toList.length)))
  else none

theorem stripEnding_eq_some {ending s rest : String} :
    stripEnding ending s = some rest ↔ s = rest ++ ending := by
  rw [← String.toList_inj, String.toList_append, stripEnding]
  constructor
  · intro h
    split at h
    · next hending =>
      obtain ⟨head, hhead⟩ := hending
      rw [← hhead, List.length_append, Nat.add_sub_cancel, List.take_left] at h
      rw [← hhead, ← Option.some.inj h, String.toList_ofList]
    · cases h
  · intro h
    rw [if_pos ⟨rest.toList, h.symm⟩, h, List.length_append, Nat.add_sub_cancel, List.take_left,
      String.ofList_toList]

/-- The string without the given characters at its end. -/
def trimEnd (c : Char) (s : String) : String := String.ofList (s.toList.rdropWhile fun d => d = c)

end Text
