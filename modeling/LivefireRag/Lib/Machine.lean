import Mathlib.Data.Fin.Basic
import Mathlib.Algebra.BigOperators.Group.List.Basic
import LivefireRag.Lib.Fallible

/-!
# Fixed-width integers and checked arithmetic

Unsigned machine integers are `Fin (2 ^ w)`. Arithmetic on them is carried out
in `ℕ` on their values, through the checked operations of this file, which
refuse a result that does not fit the width; `toWidth` is the conversion back.
-/

namespace Machine

abbrev U8 := Fin (2 ^ 8)
abbrev U16 := Fin (2 ^ 16)
abbrev U32 := Fin (2 ^ 32)
abbrev U64 := Fin (2 ^ 64)

-- one constant each for what numerals and comparisons of these types need
instance (priority := 2000) U32.neZero : NeZero (2 ^ 32) := inferInstance

instance (priority := 2000) U64.neZero : NeZero (2 ^ 64) := inferInstance

instance (priority := 2000) U32.lawfulBEq : LawfulBEq U32 := inferInstance

/-- Addition that refuses a sum of more than `w` bits. -/
def checkedAdd (w a b : ℕ) : Option ℕ :=
  if a + b < 2 ^ w then some (a + b) else none

/-- Multiplication that refuses a product of more than `w` bits. -/
def checkedMul (w a b : ℕ) : Option ℕ :=
  if a * b < 2 ^ w then some (a * b) else none

/-- Subtraction that refuses a negative difference. -/
def checkedSub (a b : ℕ) : Option ℕ :=
  if b ≤ a then some (a - b) else none

/-- Conversion to an unsigned integer of `w` bits. -/
def toWidth (w n : ℕ) : Option (Fin (2 ^ w)) :=
  if h : n < 2 ^ w then some ⟨n, h⟩ else none

@[simp] theorem checkedAdd_eq_some {w a b c : ℕ} :
    checkedAdd w a b = some c ↔ a + b < 2 ^ w ∧ a + b = c := by
  unfold checkedAdd
  split <;> simp_all

@[simp] theorem checkedMul_eq_some {w a b c : ℕ} :
    checkedMul w a b = some c ↔ a * b < 2 ^ w ∧ a * b = c := by
  unfold checkedMul
  split <;> simp_all

@[simp] theorem checkedSub_eq_some {a b c : ℕ} :
    checkedSub a b = some c ↔ b ≤ a ∧ a - b = c := by
  unfold checkedSub
  split <;> simp_all

@[simp] theorem toWidth_eq_some {w n : ℕ} {x : Fin (2 ^ w)} :
    toWidth w n = some x ↔ (x : ℕ) = n := by
  unfold toWidth
  split
  · simp only [Option.some.injEq, Fin.ext_iff]
    exact eq_comm
  · simp only [reduceCtorEq, false_iff]
    omega

/-- **Checked accumulation.** A loop whose every step checks its element and adds
a number to the running total within the width returns exactly when every
element passes and the total fits, and it returns the total. -/
theorem foldlM_add_eq_ok {α ε : Type} {w : ℕ} {f : ℕ → α → Except ε ℕ} {P : α → Prop} {g : α → ℕ}
    (hf : ∀ s x t, f s x = .ok t ↔ P x ∧ s + g x < 2 ^ w ∧ s + g x = t) {xs : List α} {s t : ℕ}
    (hs : s < 2 ^ w) :
    xs.foldlM f s = .ok t ↔
      (∀ x ∈ xs, P x) ∧ s + (xs.map g).sum < 2 ^ w ∧ s + (xs.map g).sum = t := by
  induction xs generalizing s with
  | nil => simp [hs]
  | cons x xs ih =>
    simp only [List.foldlM_cons, Fallible.bind_eq_ok, hf, List.forall_mem_cons, List.map_cons,
      List.sum_cons, ← Nat.add_assoc]
    constructor
    · rintro ⟨_, ⟨hx, hlt, rfl⟩, hrest⟩
      obtain ⟨hxs, hlt', rfl⟩ := (ih hlt).mp hrest
      exact ⟨⟨hx, hxs⟩, hlt', rfl⟩
    · rintro ⟨⟨hx, hxs⟩, hlt, rfl⟩
      have hlt' : s + g x < 2 ^ w := by omega
      exact ⟨s + g x, ⟨hx, hlt', rfl⟩, (ih hlt').mpr ⟨hxs, hlt, rfl⟩⟩

/-- The running checked sum of a list of values, failing with `e` on overflow. -/
def checkedSum {ε : Type} (w : ℕ) (e : ε) (xs : List ℕ) : Except ε ℕ :=
  xs.foldlM (fun total x => Fallible.orThrow (checkedAdd w total x) e) 0

/-- A checked sum returns the sum exactly when it fits the width. -/
@[simp] theorem checkedSum_eq_ok {ε : Type} {w : ℕ} {e : ε} {xs : List ℕ} {total : ℕ} :
    checkedSum w e xs = .ok total ↔ xs.sum < 2 ^ w ∧ xs.sum = total := by
  have hstep : ∀ s x t, Fallible.orThrow (checkedAdd w s x) e = .ok t ↔
      True ∧ s + id x < 2 ^ w ∧ s + id x = t := fun s x t => by simp
  rw [checkedSum, foldlM_add_eq_ok hstep (Nat.two_pow_pos w)]
  simp

end Machine
