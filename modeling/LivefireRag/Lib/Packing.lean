import LivefireRag.Lib.Tiling

/-!
# Greedy packing

An interval is cut into ranges that must each satisfy a condition which every part of an
admissible range satisfies too. A tiling whose ranges cannot be made longer (`Saturated`)
has no more ranges than any other admissible tiling (`Saturated.length_le`): the greedy
tiling stays ahead of the other one from range to range.
-/

namespace Packing

open Tiling

/-- A part of an admissible range is admissible. -/
def PartClosed (fits : ℕ → ℕ → Prop) : Prop :=
  ∀ {a b a' b'}, fits a b → a ≤ a' → b' ≤ b → fits a' b'

variable {α β : Type} {start stop : α → ℕ} {start' stop' : β → ℕ} {fits : ℕ → ℕ → Prop}

/-- No range but one that ends at `hi` can be extended by its next point. -/
def Saturated (start stop : α → ℕ) (fits : ℕ → ℕ → Prop) (hi : ℕ) (xs : List α) : Prop :=
  ∀ x ∈ xs, stop x < hi → ¬ fits (start x) (stop x + 1)

/-- **Greedy stays ahead.** A saturated tiling that starts no earlier than an admissible one
has no more ranges. -/
theorem Saturated.length_le (hclosed : PartClosed fits) {xs : List α} {ys : List β}
    {lo lo' hi : ℕ} (hgreedy : Saturated start stop fits hi xs)
    (htiles : Tiles start stop lo xs hi) (htiles' : Tiles start' stop' lo' ys hi)
    (hfits : ∀ y ∈ ys, fits (start' y) (stop' y)) (hahead : lo' ≤ lo) :
    xs.length ≤ ys.length := by
  induction xs generalizing ys lo lo' with
  | nil => exact Nat.zero_le _
  | cons x xs ih =>
    obtain ⟨hstart, hlt, hrest⟩ := tiles_cons.mp htiles
    have hhi := hrest.le
    cases ys with
    | nil =>
      -- the other tiling would have to end before it begins
      have hend : lo' = hi := tiles_nil.mp htiles'
      omega
    | cons y ys =>
      obtain ⟨hstart', -, hrest'⟩ := tiles_cons.mp htiles'
      have hhi' := hrest'.le
      have hstop : stop' y ≤ stop x := by
        by_contra hbeyond
        push Not at hbeyond
        -- then the range of the other tiling holds the extended greedy one
        refine hgreedy x (List.mem_cons_self ..) (by omega) ?_
        exact hclosed (hfits y (List.mem_cons_self ..)) (by omega) (by omega)
      have hle := ih (fun z hz => hgreedy z (List.mem_cons_of_mem x hz)) hrest hrest'
        (fun z hz => hfits z (List.mem_cons_of_mem y hz)) hstop
      rw [List.length_cons, List.length_cons]
      exact Nat.succ_le_succ hle

end Packing
