import Mathlib.Data.Nat.Digits.Defs
import Mathlib.Data.List.Basic

/-!
# Hexadecimal digits

Bytes written as pairs of lowercase hexadecimal digits, and read back from digits
of either case. Reading undoes writing (`decode_encode`), and writing undoes the
reading of lowercase digits (`encode_decode`); digits of either case are written back in
lowercase (`encode_decode_toLower`).
-/

namespace Hex

def encodeByte (b : UInt8) : List Char :=
  [Nat.digitChar (b.toNat / 16), Nat.digitChar (b.toNat % 16)]

def encode (bs : List UInt8) : List Char := bs.flatMap encodeByte

/-- The value of a digit of either case. -/
def digitValue (c : Char) : Option ℕ :=
  if '0' ≤ c ∧ c ≤ '9' then some (c.toNat - 48)
  else if 'a' ≤ c ∧ c ≤ 'f' then some (c.toNat - 87)
  else if 'A' ≤ c ∧ c ≤ 'F' then some (c.toNat - 55)
  else none

/-- The bytes that pairs of digits stand for. -/
def decode : List Char → Option (List UInt8)
  | [] => some []
  | [_] => none
  | high :: low :: cs => do
    let h ← digitValue high
    let l ← digitValue low
    let bs ← decode cs
    return UInt8.ofNat (16 * h + l) :: bs

/-- A digit of either case. -/
def IsDigit (c : Char) : Prop :=
  '0' ≤ c ∧ c ≤ '9' ∨ 'a' ≤ c ∧ c ≤ 'f' ∨ 'A' ≤ c ∧ c ≤ 'F'

instance : DecidablePred IsDigit := fun c => by unfold IsDigit; infer_instance

/-- A digit as `encode` writes it. -/
def IsLowerDigit (c : Char) : Prop := c.isDigit ∨ 'a' ≤ c ∧ c ≤ 'f'

theorem digitValue_digitChar {n : ℕ} (h : n < 16) : digitValue (Nat.digitChar n) = some n := by
  have hall : ∀ n < 16, digitValue (Nat.digitChar n) = some n := by decide
  exact hall n h

theorem IsLowerDigit.exists_digitChar {c : Char} (h : IsLowerDigit c) :
    ∃ n < 16, c = Nat.digitChar n := by
  have hrange : 48 ≤ c.toNat ∧ c.toNat ≤ 57 ∨ 97 ≤ c.toNat ∧ c.toNat ≤ 102 := by
    rcases h with h | ⟨hlow, hhigh⟩
    · simp only [Char.isDigit, ge_iff_le, Bool.and_eq_true, decide_eq_true_iff] at h
      exact .inl ⟨h.1, h.2⟩
    · exact .inr ⟨hlow, hhigh⟩
  have hall : ∀ n < 103, 48 ≤ n ∧ n ≤ 57 ∨ 97 ≤ n ∧ n ≤ 102 →
      ∃ k < 16, Char.ofNat n = Nat.digitChar k := by decide +kernel
  obtain ⟨k, hk, heq⟩ := hall c.toNat (by omega) hrange
  exact ⟨k, hk, by rw [← heq, Char.ofNat_toNat]⟩

theorem decode_cons_cons {h l : ℕ} (hh : h < 16) (hl : l < 16) (cs : List Char) :
    decode (Nat.digitChar h :: Nat.digitChar l :: cs) =
      (decode cs).map (UInt8.ofNat (16 * h + l) :: ·) := by
  rw [decode, digitValue_digitChar hh, digitValue_digitChar hl]
  cases decode cs <;> rfl

/-- **Reading undoes writing.** -/
theorem decode_encode (bs : List UInt8) : decode (encode bs) = some bs := by
  induction bs with
  | nil => rfl
  | cons b bs ih =>
    have hlt : b.toNat < 256 := b.toNat_lt
    have hbyte : UInt8.ofNat (16 * (b.toNat / 16) + b.toNat % 16) = b := by
      rw [Nat.div_add_mod, UInt8.ofNat_toNat]
    show decode (Nat.digitChar _ :: Nat.digitChar _ :: encode bs) = _
    rw [decode_cons_cons (by omega) (Nat.mod_lt _ (by decide)), ih, Option.map_some, hbyte]

/-- **Writing undoes the reading of lowercase digits**, which never fails on pairs. -/
theorem encode_decode {cs : List Char} (heven : cs.length % 2 = 0)
    (h : ∀ c ∈ cs, IsLowerDigit c) : ∃ bs, decode cs = some bs ∧ encode bs = cs := by
  induction cs using decode.induct with
  | case1 => exact ⟨[], rfl, rfl⟩
  | case2 c => simp at heven
  | case3 high low cs ih =>
    obtain ⟨hhigh, hrest⟩ := List.forall_mem_cons.mp h
    obtain ⟨hlow, hcs⟩ := List.forall_mem_cons.mp hrest
    obtain ⟨bs, hdecode, hencode⟩ := ih (by simp only [List.length_cons] at heven; omega) hcs
    obtain ⟨m, hm, rfl⟩ := hhigh.exists_digitChar
    obtain ⟨n, hn, rfl⟩ := hlow.exists_digitChar
    have hbyte : (UInt8.ofNat (16 * m + n)).toNat = 16 * m + n :=
      UInt8.toNat_ofNat_of_lt' (by show _ < 256; omega)
    refine ⟨UInt8.ofNat (16 * m + n) :: bs, by rw [decode_cons_cons hm hn, hdecode]; rfl, ?_⟩
    show Nat.digitChar _ :: Nat.digitChar _ :: encode bs = _
    rw [hencode, hbyte, Nat.mul_add_div (by decide), Nat.div_eq_of_lt hn, Nat.add_zero,
      Nat.mul_add_mod, Nat.mod_eq_of_lt hn]

theorem digitValue_isSome {c : Char} : (digitValue c).isSome ↔ IsDigit c := by
  unfold digitValue IsDigit
  split
  · next h => exact iff_of_true rfl (.inl h)
  · next h0 =>
    split
    · next h => exact iff_of_true rfl (.inr (.inl h))
    · next h1 =>
      split
      · next h => exact iff_of_true rfl (.inr (.inr h))
      · next h2 => exact iff_of_false nofun (by tauto)

/-- The digits of a pair, once lowered, are the pair `encode` writes for its value. -/
theorem IsDigit.toLower_eq {c : Char} (h : IsDigit c) :
    ∃ n < 16, digitValue c = some n ∧ c.toLower = Nat.digitChar n := by
  have hrange : 48 ≤ c.toNat ∧ c.toNat ≤ 57 ∨ 97 ≤ c.toNat ∧ c.toNat ≤ 102 ∨
      65 ≤ c.toNat ∧ c.toNat ≤ 70 := h
  have hall : ∀ n < 103, 48 ≤ n ∧ n ≤ 57 ∨ 97 ≤ n ∧ n ≤ 102 ∨ 65 ≤ n ∧ n ≤ 70 →
      ∃ k < 16, digitValue (Char.ofNat n) = some k ∧
        (Char.ofNat n).toLower = Nat.digitChar k := by decide +kernel
  have hfound := hall c.toNat (by omega) hrange
  rwa [Char.ofNat_toNat] at hfound

/-- **Digits of either case are written back in lowercase**, and pairs of them are
read. -/
theorem encode_decode_toLower {cs : List Char} (heven : cs.length % 2 = 0)
    (h : ∀ c ∈ cs, IsDigit c) : ∃ bs, decode cs = some bs ∧ encode bs = cs.map Char.toLower := by
  induction cs using decode.induct with
  | case1 => exact ⟨[], rfl, rfl⟩
  | case2 c => simp at heven
  | case3 high low cs ih =>
    obtain ⟨hhigh, hrest⟩ := List.forall_mem_cons.mp h
    obtain ⟨hlow, hcs⟩ := List.forall_mem_cons.mp hrest
    obtain ⟨bs, hdecode, hencode⟩ := ih (by simp only [List.length_cons] at heven; omega) hcs
    obtain ⟨m, hm, hvalueHigh, hlowerHigh⟩ := hhigh.toLower_eq
    obtain ⟨n, hn, hvalueLow, hlowerLow⟩ := hlow.toLower_eq
    have hbyte : (UInt8.ofNat (16 * m + n)).toNat = 16 * m + n :=
      UInt8.toNat_ofNat_of_lt' (by show _ < 256; omega)
    refine ⟨UInt8.ofNat (16 * m + n) :: bs, ?_, ?_⟩
    · rw [decode, hvalueHigh, hvalueLow, hdecode]
      rfl
    · show Nat.digitChar _ :: Nat.digitChar _ :: encode bs = _
      rw [hencode, hbyte, Nat.mul_add_div (by decide), Nat.div_eq_of_lt hn, Nat.add_zero,
        Nat.mul_add_mod, Nat.mod_eq_of_lt hn, List.map_cons, List.map_cons, hlowerHigh, hlowerLow]

/-- The byte at a position is read from the pair at that position. -/
theorem getElem?_decode {cs : List Char} {bs : List UInt8} (h : decode cs = some bs) (i : ℕ) :
    bs[i]? = do
      let m ← cs[2 * i]?.bind digitValue
      let n ← cs[2 * i + 1]?.bind digitValue
      return UInt8.ofNat (16 * m + n) := by
  induction cs using decode.induct generalizing bs i with
  | case1 =>
    obtain rfl : [] = bs := Option.some.inj h
    rfl
  | case2 c => simp [decode] at h
  | case3 high low cs ih =>
    rw [decode] at h
    obtain ⟨m, hm, h⟩ := Option.bind_eq_some_iff.mp h
    obtain ⟨n, hn, h⟩ := Option.bind_eq_some_iff.mp h
    obtain ⟨rest, hrest, h⟩ := Option.bind_eq_some_iff.mp h
    obtain rfl := Option.some.inj h
    cases i with
    | zero => simp [hm, hn]
    | succ i =>
      rw [List.getElem?_cons_succ, ih hrest i]
      rfl

@[simp] theorem length_encode (bs : List UInt8) : (encode bs).length = 2 * bs.length := by
  induction bs with
  | nil => rfl
  | cons b bs ih =>
    show (encode bs).length + 1 + 1 = _
    rw [ih, List.length_cons]
    omega

theorem isLowerDigit_of_mem_encode {bs : List UInt8} {c : Char} (h : c ∈ encode bs) :
    IsLowerDigit c := by
  have hall : ∀ n < 16, (Nat.digitChar n).isDigit ∨
      'a' ≤ Nat.digitChar n ∧ Nat.digitChar n ≤ 'f' := by decide
  obtain ⟨b, -, hb⟩ := List.mem_flatMap.mp h
  have hlt : b.toNat < 256 := b.toNat_lt
  simp only [encodeByte, List.mem_cons, List.not_mem_nil, or_false] at hb
  rcases hb with rfl | rfl
  · exact hall _ (by omega)
  · exact hall _ (Nat.mod_lt _ (by decide))

end Hex
