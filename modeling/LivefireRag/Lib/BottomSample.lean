import Mathlib.Data.Finset.Card
import Mathlib.Data.Finset.Max

/-!
# The smallest elements of a set

`IsBottom k seen kept` says that `kept` are the `k` smallest elements of `seen`, or all
of them when there are no more than `k`. A set has one such subset (`IsBottom.unique`).

The subset can be maintained while elements are added one by one, in any order and
with repetitions, by looking only at the greatest element kept: a new element enters a
full sample by replacing the greatest, if it is below it. An element that was replaced
stays above everything kept, so it can be offered again without effect.
-/

namespace BottomSample

variable {κ : Type} [LinearOrder κ] {k : ℕ} {seen kept kept' : Finset κ} {x : κ}

/-- The greatest element of a set, if there is one. -/
def greatest (kept : Finset κ) : Option κ := kept.max

theorem greatest_eq_some {worst : κ} :
    greatest kept = some worst ↔ worst ∈ kept ∧ ∀ y ∈ kept, y ≤ worst := by
  constructor
  · intro h
    exact ⟨Finset.mem_of_max h, fun y hy => Finset.le_max_of_eq hy h⟩
  · rintro ⟨hmem, hgreatest⟩
    have hmax : kept.max ≤ (worst : WithBot κ) :=
      Finset.max_le fun y hy => WithBot.coe_le_coe.mpr (hgreatest y hy)
    exact hmax.antisymm (Finset.le_max hmem)

theorem exists_greatest (h : kept.Nonempty) : ∃ worst, greatest kept = some worst :=
  Finset.max_of_nonempty h

structure IsBottom (k : ℕ) (seen kept : Finset κ) : Prop where
  subset : kept ⊆ seen
  card_eq : kept.card = min k seen.card
  below : ∀ x ∈ kept, ∀ y ∈ seen, y ∉ kept → x < y

theorem isBottom_empty (k : ℕ) : IsBottom k (∅ : Finset κ) ∅ where
  subset := Finset.Subset.refl _
  card_eq := by simp
  below x hx := absurd hx (Finset.notMem_empty x)

/-- While there is room, everything seen is kept. -/
theorem IsBottom.eq_of_card_lt (h : IsBottom k seen kept) (hlt : kept.card < k) : kept = seen := by
  refine Finset.eq_of_subset_of_card_le h.subset ?_
  have hcard := h.card_eq
  omega

/-- **Uniqueness.** Two subsets of the smallest elements are equal. -/
theorem IsBottom.unique (h : IsBottom k seen kept) (h' : IsBottom k seen kept') : kept = kept' := by
  have hcard : kept.card = kept'.card := h.card_eq.trans h'.card_eq.symm
  refine Finset.eq_of_subset_of_card_le ?_ hcard.ge
  intro x hx
  by_contra hx'
  -- otherwise some element is kept only in the other subset, and it lies on both sides of `x`
  have hnot : ¬ kept' ⊆ kept := by
    intro hsubset
    exact hx' (Finset.eq_of_subset_of_card_le hsubset hcard.le ▸ hx)
  obtain ⟨y, hy', hy⟩ := Finset.not_subset.mp hnot
  have hxy := h.below x hx y (h'.subset hy') hy
  have hyx := h'.below y hy' x (h.subset hx) hx'
  exact lt_asymm hxy hyx

/-- An element seen before that is not kept lies above a full sample. -/
theorem IsBottom.full_of_notMem (h : IsBottom k seen kept) (hx : x ∈ seen) (hkept : x ∉ kept) :
    kept.card = k := by
  by_contra hne
  have hcard := h.card_eq
  have hall := h.eq_of_card_lt (by omega)
  exact hkept (hall ▸ hx)

/-! ### One more element -/

/-- With room left, the new element is kept. -/
theorem IsBottom.insert_of_card_lt (h : IsBottom k seen kept) (hlt : kept.card < k) :
    IsBottom k (insert x seen) (insert x kept) := by
  obtain rfl := h.eq_of_card_lt hlt
  refine ⟨Finset.Subset.refl _, ?_, fun _ _ y hy hy' => absurd hy hy'⟩
  have hinsert := Finset.card_insert_le x kept
  omega

/-- Above a full sample, the new element is dropped. -/
theorem IsBottom.insert_of_le (h : IsBottom k seen kept) (hfull : kept.card = k)
    (habove : ∀ y ∈ kept, y < x) : IsBottom k (insert x seen) kept := by
  refine ⟨h.subset.trans (Finset.subset_insert _ _), ?_, ?_⟩
  · have hcard := h.card_eq
    have hinsert := Finset.card_le_card (Finset.subset_insert x seen)
    omega
  · intro y hy z hz hkept
    rcases Finset.mem_insert.mp hz with rfl | hz
    · exact habove y hy
    · exact h.below y hy z hz hkept

/-- Below the greatest element of a full sample, the new element takes its place. -/
theorem IsBottom.replace (h : IsBottom k seen kept) (hfull : kept.card = k) (hx : x ∉ kept)
    {worst : κ} (hworst : worst ∈ kept) (hgreatest : ∀ y ∈ kept, y ≤ worst) (hlt : x < worst) :
    IsBottom k (insert x seen) (insert x (kept.erase worst)) := by
  have hx' : x ∉ kept.erase worst := fun hmem => hx (Finset.mem_of_mem_erase hmem)
  refine ⟨?_, ?_, ?_⟩
  · exact Finset.insert_subset_insert x ((Finset.erase_subset _ _).trans h.subset)
  · have hpos : 0 < kept.card := Finset.card_pos.mpr ⟨worst, hworst⟩
    rw [Finset.card_insert_of_notMem hx', Finset.card_erase_of_mem hworst]
    have hcard := h.card_eq
    have hinsert := Finset.card_le_card (Finset.subset_insert x seen)
    omega
  · -- what is not kept is the replaced element or was above the sample before
    intro y hy z hz hkept
    rw [Finset.mem_insert, not_or] at hkept
    obtain ⟨hzx, hz'⟩ := hkept
    have hzseen := (Finset.mem_insert.mp hz).resolve_left hzx
    have hzworst : worst ≤ z := by
      by_cases hmem : z ∈ kept
      · have heq : z = worst := by
          by_contra hne
          exact hz' (Finset.mem_erase.mpr ⟨hne, hmem⟩)
        exact heq.ge
      · exact (h.below worst hworst z hzseen hmem).le
    rcases Finset.mem_insert.mp hy with rfl | hy
    · exact hlt.trans_le hzworst
    · obtain ⟨hne, hykept⟩ := Finset.mem_erase.mp hy
      exact (lt_of_le_of_ne (hgreatest y hykept) hne).trans_le hzworst

end BottomSample
