import LivefireRag.Lib.Bytes
import LivefireRag.Lib.Machine

/-!
# Bits of 32-bit floats

A 32-bit float is kept as its bits; what is decided about it is decided from them.
-/

/-- The bits of a 32-bit float. -/
abbrev F32 := Machine.U32

namespace F32

/-- The exponent is not all ones. -/
def IsFinite (value : F32) : Prop := (value : ℕ) / 2 ^ 23 % 2 ^ 8 ≠ 255

instance : DecidablePred IsFinite := fun value => by unfold IsFinite; infer_instance

/-- All bits below the sign are zero. -/
def IsZero (value : F32) : Prop := (value : ℕ) % 2 ^ 31 = 0

instance : DecidablePred IsZero := fun value => by unfold IsZero; infer_instance

/-- Equal up to the sign of zero. -/
def Same (value other : F32) : Prop := value = other ∨ value.IsZero ∧ other.IsZero

def toLeBytes (value : F32) : List UInt8 := Bytes.toLeBytes 4 value

def ofLeBytes (bytes : List UInt8) : F32 :=
  ⟨Bytes.ofLeBytes bytes % 2 ^ 32, Nat.mod_lt _ (by decide)⟩

theorem ofLeBytes_toLeBytes (value : F32) : ofLeBytes value.toLeBytes = value := by
  apply Fin.ext
  show Bytes.ofLeBytes (Bytes.toLeBytes 4 value) % 2 ^ 32 = value
  have hlt := value.isLt
  rw [Bytes.ofLeBytes_toLeBytes]
  omega

theorem toLeBytes_ofLeBytes {bytes : List UInt8} (h : bytes.length = 4) :
    (ofLeBytes bytes).toLeBytes = bytes := by
  have hlt := Bytes.ofLeBytes_lt bytes
  rw [h] at hlt
  have hlt : Bytes.ofLeBytes bytes < 2 ^ 32 := hlt
  show Bytes.toLeBytes 4 (Bytes.ofLeBytes bytes % 2 ^ 32) = bytes
  rw [Nat.mod_eq_of_lt hlt, Bytes.toLeBytes_ofLeBytes h]

end F32
