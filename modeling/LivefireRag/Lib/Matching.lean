import Mathlib.Data.List.Forall2
import Mathlib.Data.List.Nodup
import Mathlib.Data.List.Perm.Subperm

/-!
# Matching two lists by key

Exactly-once arguments: a list of demands with distinct keys and a list of
supplies that is no longer. When each demand is met by a supply with its key,
the supplies, put into the order of the demands, are a permutation of the list
they came from: no supply is missing, used twice or left over.
-/

namespace Matching

variable {α β κ : Type}

/-- Every element of the second of two related lists is related to one of the
first. -/
theorem exists_left_of_mem {R : α → β → Prop} {xs : List α} {ys : List β}
    (h : List.Forall₂ R xs ys) {y : β} (hy : y ∈ ys) : ∃ x ∈ xs, R x y := by
  induction h with
  | nil => exact absurd hy List.not_mem_nil
  | cons hxy _ ih =>
    rcases List.mem_cons.mp hy with rfl | hy
    · exact ⟨_, List.mem_cons_self .., hxy⟩
    · obtain ⟨x, hx, hrel⟩ := ih hy
      exact ⟨x, List.mem_cons_of_mem _ hx, hrel⟩

theorem exists_right_of_mem {R : α → β → Prop} {xs : List α} {ys : List β}
    (h : List.Forall₂ R xs ys) {x : α} (hx : x ∈ xs) : ∃ y ∈ ys, R x y :=
  exists_left_of_mem (List.Forall₂.flip h) hx

/-- Choosing a partner for each element, in order. -/
theorem exists_forall₂ {R : α → β → Prop} {xs : List α} (h : ∀ x ∈ xs, ∃ y, R x y) :
    ∃ ys, List.Forall₂ R xs ys := by
  induction xs with
  | nil => exact ⟨[], .nil⟩
  | cons x xs ih =>
    rw [List.forall_mem_cons] at h
    obtain ⟨y, hy⟩ := h.1
    obtain ⟨ys, hys⟩ := ih h.2
    exact ⟨y :: ys, .cons hy hys⟩

/-- Partners with equal keys have equal lists of keys. -/
theorem map_eq_of_forall₂ {R : α → β → Prop} {key : α → κ} {key' : β → κ} {xs : List α}
    {ys : List β} (hkey : ∀ x y, R x y → key' y = key x) (h : List.Forall₂ R xs ys) :
    ys.map key' = xs.map key := by
  induction h with
  | nil => rfl
  | cons hxy _ ih => rw [List.map_cons, List.map_cons, hkey _ _ hxy, ih]

/-- **The matching rule.** When each of the demands `xs`, whose keys are
distinct, is met by a member of `ys`, and `ys` is no longer than `xs`, then `ys`
is, up to its order, the list of the members that meet them. -/
theorem exists_perm_forall₂ {R : α → β → Prop} {key : α → κ} {key' : β → κ} {xs : List α}
    {ys : List β} (hnodup : (xs.map key).Nodup) (hlength : ys.length ≤ xs.length)
    (hkey : ∀ x y, R x y → key' y = key x) (h : ∀ x ∈ xs, ∃ y ∈ ys, R x y) :
    ∃ zs, zs.Perm ys ∧ List.Forall₂ R xs zs := by
  have hchoice : ∀ x ∈ xs, ∃ y, y ∈ ys ∧ R x y := h
  obtain ⟨zs, hzs⟩ := exists_forall₂ hchoice
  have hrel : List.Forall₂ R xs zs := hzs.imp fun _ _ hxy => hxy.2
  -- the partners have distinct keys, so no partner serves twice
  have hkeys : zs.map key' = xs.map key := map_eq_of_forall₂ hkey hrel
  have hzsNodup : zs.Nodup := List.Nodup.of_map key' (hkeys ▸ hnodup)
  have hsubset : zs ⊆ ys := by
    intro z hz
    obtain ⟨i, hi, rfl⟩ := List.mem_iff_getElem.mp hz
    exact (hzs.get (hzs.length_eq ▸ hi) hi).1
  have hsub : zs.Subperm ys := hzsNodup.subperm hsubset
  refine ⟨zs, hsub.perm_of_length_le ?_, hrel⟩
  rw [← hrel.length_eq]
  exact hlength

/-- Relating lists through a third one. -/
theorem forall₂_trans {γ : Type} {R : α → β → Prop} {S : β → γ → Prop} {T : α → γ → Prop}
    (htrans : ∀ x y z, R x y → S y z → T x z) {xs : List α} {ys : List β} {zs : List γ}
    (h : List.Forall₂ R xs ys) (h' : List.Forall₂ S ys zs) : List.Forall₂ T xs zs := by
  induction h generalizing zs with
  | nil =>
    obtain rfl := List.forall₂_nil_left_iff.mp h'
    exact .nil
  | cons hxy _ ih =>
    obtain ⟨z, zs, hyz, hrest, rfl⟩ := List.forall₂_cons_left_iff.mp h'
    exact .cons (htrans _ _ _ hxy hyz) (ih hrest)

/-- Groups that are matched up to a permutation, group by group, are matched up to
a permutation when they are strung together. -/
theorem exists_perm_flatMap {γ δ : Type} {R : γ → δ → Prop} {f : α → List γ} {g : β → List δ}
    {xs : List α} {ys : List β}
    (h : List.Forall₂ (fun x y => ∃ zs, zs.Perm (g y) ∧ List.Forall₂ R (f x) zs) xs ys) :
    ∃ zs, zs.Perm (ys.flatMap g) ∧ List.Forall₂ R (xs.flatMap f) zs := by
  induction h with
  | nil => exact ⟨[], .nil, .nil⟩
  | cons hxy _ ih =>
    obtain ⟨zs, hperm, hrel⟩ := hxy
    obtain ⟨others, hperms, hrels⟩ := ih
    exact ⟨zs ++ others, hperm.append hperms, List.rel_append hrel hrels⟩

/-- Elements of a list with distinct keys, as many as the list is long, are the
whole list. -/
theorem perm_of_mem {key : α → κ} {xs ys : List α} (hnodup : (xs.map key).Nodup)
    (hmem : ∀ x ∈ xs, x ∈ ys) (hlength : ys.length ≤ xs.length) : xs.Perm ys :=
  (List.subperm_of_subset hnodup.of_map hmem).perm_of_length_le hlength

end Matching
