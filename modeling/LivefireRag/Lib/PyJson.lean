import Mathlib.Data.Rat.Defs
import LivefireRag.Lib.JsonAccess
import LivefireRag.Lib.Text

/-!
# JSON values in Python

How a Python program compares JSON values and takes them apart. Two values are equal when
they have the same shape and equal parts, and numbers and truth values are compared by
their value, so that `1`, `1.0` and `true` are equal: `Json.pyEq`. A text is equal to itself
alone (`pyEq_string`), and equal objects have equal members (`pyEq_get?`).
-/

namespace Json

/-- The value of a number of 64 bits, unless it is infinite or no number. -/
def floatValue (bits : Machine.U64) : Option ℚ :=
  let exponent : ℕ := (bits : ℕ) / 2 ^ 52 % 2 ^ 11
  let fraction : ℕ := (bits : ℕ) % 2 ^ 52
  let sign : ℚ := if (bits : ℕ) < 2 ^ 63 then 1 else -1
  if exponent = 2047 then none
  else if exponent = 0 then some (sign * (fraction : ℚ) / 2 ^ 1074)
  else some (sign * (2 ^ 52 + (fraction : ℚ)) * 2 ^ exponent / 2 ^ 1075)

/-- The value of a number or of a truth value. -/
def numericValue : Json → Option ℚ
  | .bool b => some (if b then 1 else 0)
  | .number (.posInt n) => some n
  | .number (.negInt n) => some (-(n + 1))
  | .number (.float bits) => floatValue bits
  | _ => none

def samePyNumber (a b : Json) : Bool :=
  match a.numericValue, b.numericValue with
  | some x, some y => x = y
  | none, none => a = b
  | _, _ => false

mutual

/-- The equality of Python. The members of an object stand in key order. -/
def pyEq : Json → Json → Bool
  | .null, .null => true
  | .string a, .string b => a = b
  | .array as, .array bs => pyEqElements as bs
  | .object as, .object bs => pyEqMembers as bs
  | .bool a, .bool b => samePyNumber (.bool a) (.bool b)
  | .bool a, .number b => samePyNumber (.bool a) (.number b)
  | .number a, .bool b => samePyNumber (.number a) (.bool b)
  | .number a, .number b => samePyNumber (.number a) (.number b)
  | _, _ => false

def pyEqElements : List Json → List Json → Bool
  | [], [] => true
  | a :: as, b :: bs => pyEq a b && pyEqElements as bs
  | _, _ => false

def pyEqMembers : List (String × Json) → List (String × Json) → Bool
  | [], [] => true
  | (key, a) :: as, (key', b) :: bs => key = key' && pyEq a b && pyEqMembers as bs
  | _, _ => false

end

theorem pyEq_string {value : Json} {s : String} : pyEq value (.string s) = true ↔
    value = .string s := by
  cases value <;> simp [pyEq]

theorem string_pyEq {value : Json} {s : String} : pyEq (.string s) value = true ↔
    value = .string s := by
  cases value <;> simp [pyEq, eq_comm]

/-- Equal lists of members have equal values under a key. -/
theorem pyEqMembers_field? {as bs : List (String × Json)} (h : pyEqMembers as bs = true)
    {key : String} {a : Json} (ha : field? as key = some a) :
    ∃ b, field? bs key = some b ∧ pyEq a b = true := by
  induction as generalizing bs with
  | nil => cases ha
  | cons m as ih =>
    obtain ⟨key', x⟩ := m
    cases bs with
    | nil => cases h
    | cons m' bs =>
      obtain ⟨key'', y⟩ := m'
      simp only [pyEqMembers, Bool.and_eq_true, decide_eq_true_eq] at h
      obtain ⟨⟨rfl, hxy⟩, hrest⟩ := h
      by_cases hkey : key' = key
      · subst hkey
        simp only [field?, List.find?_cons, decide_true, Option.map_some, Option.some.injEq] at ha
        subst ha
        exact ⟨y, by simp [field?], hxy⟩
      · simp only [field?, List.find?_cons, hkey, decide_false] at ha
        obtain ⟨b, hb, hab⟩ := ih hrest ha
        exact ⟨b, by simpa [field?, hkey] using hb, hab⟩

theorem pyEq_get? {a b : Json} (h : pyEq a b = true) {key : String} {x : Json}
    (hx : a.get? key = some x) : ∃ y, b.get? key = some y ∧ pyEq x y = true := by
  cases a with
  | object as =>
    cases b with
    | object bs => exact pyEqMembers_field? h hx
    | _ => cases h
  | _ => cases hx

/-- Equal values have the same text at the same place. -/
theorem pyEq_member_string {a b : Json} (h : pyEq a b = true) {key s : String}
    (ha : a.member key = .string s) : b.member key = .string s := by
  obtain ⟨y, hy, hsame⟩ := pyEq_get? h (member_eq_string.mp ha)
  rw [member_eq_string, hy, string_pyEq.mp hsame]

theorem pyEq_member_member_string {a b : Json} (h : pyEq a b = true) {key name s : String}
    (ha : (a.member key).member name = .string s) : (b.member key).member name = .string s := by
  unfold member at ha ⊢
  cases hx : a.get? key with
  | none =>
    rw [hx] at ha
    cases ha
  | some x =>
    obtain ⟨y, hy, hsame⟩ := pyEq_get? h hx
    rw [hx] at ha
    rw [hy]
    exact pyEq_member_string hsame ha

/-! ### Taking values apart -/

/-- The white space that stripping removes. -/
def IsPySpace (c : Char) : Prop :=
  9 ≤ c.toNat ∧ c.toNat ≤ 13 ∨ 0x1C ≤ c.toNat ∧ c.toNat ≤ 0x20 ∨
    0x2000 ≤ c.toNat ∧ c.toNat ≤ 0x200A ∨
    c.toNat ∈ [0x85, 0xA0, 0x1680, 0x2028, 0x2029, 0x202F, 0x205F, 0x3000]

instance : DecidablePred IsPySpace := fun c => by unfold IsPySpace; infer_instance

/-- The value is an object with these fields and no others. -/
def HasFields (value : Json) (names : List String) : Prop :=
  match value with
  | .object members => (∀ m ∈ members, m.1 ∈ names) ∧ ∀ name ∈ names, name ∈ members.map Prod.fst
  | _ => False

instance (names : List String) : DecidablePred fun value => HasFields value names := fun value => by
  unfold HasFields
  cases value <;> infer_instance

/-- An integer that is no truth value. -/
def asPyInt : Json → Option ℤ
  | .number (.posInt n) => some n
  | .number (.negInt n) => some (-(n + 1))
  | _ => none

/-- An integer, the truth values being the integers 1 and 0. -/
def asPyIndex : Json → Option ℤ
  | .bool b => some (if b then 1 else 0)
  | value => value.asPyInt

def isNumber : Json → Bool
  | .number _ => true
  | _ => false

/-- What a condition takes the value for. -/
def truthy : Json → Bool
  | .null => false
  | .bool b => b
  | .string s => s ≠ ""
  | .array elements => elements ≠ []
  | .object members => members ≠ []
  | value => value.numericValue ≠ some 0

end Json
