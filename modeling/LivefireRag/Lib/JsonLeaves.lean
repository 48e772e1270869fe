import LivefireRag.Lib.JsonPointer
import LivefireRag.Lib.Ranking

/-!
# The scalars of a JSON value in order

What a walk through a value meets: its scalars with their positions, the members of an
object in key order, and of an array only the first `cut` elements. Every leaf stands
where it says (`follow_of_mem_leaves`), and where no object repeats a key, no two leaves
stand at one position (`nodup_leaves`).
-/

namespace Json

/-! ### Values -/

def IsScalar : Json → Prop
  | .array _ => False
  | .object _ => False
  | _ => True

mutual

/-- No object of the value repeats a key. -/
def UniqueKeys : Json → Prop
  | .object members => (members.map Prod.fst).Nodup ∧ UniqueKeysMembers members
  | .array elements => UniqueKeysElements elements
  | _ => True

def UniqueKeysMembers : List (String × Json) → Prop
  | [] => True
  | (_, child) :: members => UniqueKeys child ∧ UniqueKeysMembers members

def UniqueKeysElements : List Json → Prop
  | [] => True
  | child :: elements => UniqueKeys child ∧ UniqueKeysElements elements

end

/-! ### Leaves -/

/-- A scalar and where it stands. -/
abbrev Leaf := List Step × Json

def Leaf.under (step : Step) (leaf : Leaf) : Leaf := (step :: leaf.1, leaf.2)

mutual

def leaves (cut : ℕ) : Json → List Leaf
  | .object members => (Ranking.sortBy Prod.fst (memberLeaves cut members)).flatMap Prod.snd
  | .array elements => elementLeaves cut 0 elements
  | scalar => [([], scalar)]

/-- The leaves under each key. -/
def memberLeaves (cut : ℕ) : List (String × Json) → List (String × List Leaf)
  | [] => []
  | (key, child) :: members =>
    (key, (leaves cut child).map (Leaf.under (.key key))) :: memberLeaves cut members

/-- The leaves of the elements from an index on. -/
def elementLeaves (cut : ℕ) : ℕ → List Json → List Leaf
  | _, [] => []
  | index, child :: elements =>
    if index < cut then
      (leaves cut child).map (Leaf.under (.index index)) ++ elementLeaves cut (index + 1) elements
    else []

end

theorem leaves_of_isScalar {cut : ℕ} {value : Json} (h : IsScalar value) :
    leaves cut value = [([], value)] := by
  cases value with
  | object members => exact h.elim
  | array elements => exact h.elim
  | _ => simp only [leaves]

variable {cut : ℕ}

theorem memberLeaves_eq_map (members : List (String × Json)) :
    memberLeaves cut members = members.map fun member =>
      (member.1, (leaves cut member.2).map (Leaf.under (.key member.1))) := by
  induction members with
  | nil => rfl
  | cons member members ih => rw [memberLeaves, List.map_cons, ih]

/-- The leaves of an object: its members' in key order. -/
theorem leaves_object (members : List (String × Json)) :
    leaves cut (.object members) = (Ranking.sortBy Prod.fst members).flatMap fun member =>
      (leaves cut member.2).map (Leaf.under (.key member.1)) := by
  rw [leaves, memberLeaves_eq_map, Ranking.sortBy_map_of_key _ (fun _ => rfl), List.flatMap_map]

/-- A leaf of an object is a leaf of one of its members. -/
theorem mem_leaves_object {members : List (String × Json)} {leaf : Leaf} :
    leaf ∈ leaves cut (.object members) ↔ ∃ member ∈ members, ∃ inner ∈ leaves cut member.2,
      leaf = inner.under (.key member.1) := by
  simp only [leaves_object, List.mem_flatMap, Ranking.mem_sortBy, List.mem_map, eq_comm]

/-- A leaf of an array is a leaf of an element before the cut. -/
theorem mem_elementLeaves {start : ℕ} {elements : List Json} {leaf : Leaf} :
    leaf ∈ elementLeaves cut start elements ↔ ∃ i child, start + i < cut ∧
      elements[i]? = some child ∧ ∃ inner ∈ leaves cut child,
        leaf = inner.under (.index (start + i)) := by
  induction elements generalizing start with
  | nil => simp [elementLeaves]
  | cons child elements ih =>
    rw [elementLeaves]
    constructor
    · intro h
      split at h
      · next hcut =>
        rcases List.mem_append.mp h with h | h
        · obtain ⟨inner, hinner, rfl⟩ := List.mem_map.mp h
          exact ⟨0, child, hcut, rfl, inner, hinner, rfl⟩
        · obtain ⟨i, child, hi, hchild, inner, hinner, rfl⟩ := ih.mp h
          exact ⟨i + 1, child, by omega, hchild, inner, hinner, by
            rw [Nat.add_assoc, Nat.add_comm 1 i]⟩
      · cases h
    · rintro ⟨i, found, hi, hfound, inner, hinner, rfl⟩
      rw [if_pos (by omega)]
      cases i with
      | zero =>
        obtain rfl := Option.some.inj hfound
        exact List.mem_append_left _ (List.mem_map.mpr ⟨inner, hinner, rfl⟩)
      | succ i =>
        refine List.mem_append_right _ (ih.mpr ⟨i, found, by omega, hfound, inner, hinner, ?_⟩)
        rw [Nat.add_assoc, Nat.add_comm 1 i]

theorem field?_of_mem {members : List (String × Json)} (hkeys : (members.map Prod.fst).Nodup)
    {member : String × Json} (h : member ∈ members) : field? members member.1 = some member.2 := by
  induction members with
  | nil => cases h
  | cons first members ih =>
    obtain ⟨hfirst, hmembers⟩ := List.nodup_cons.mp hkeys
    rcases List.mem_cons.mp h with rfl | h
    · simp [field?]
    · have hne : first.1 ≠ member.1 := fun heq => hfirst (heq ▸ List.mem_map_of_mem h)
      have hrest := ih hmembers h
      rw [field?] at hrest ⊢
      rwa [List.find?_cons_of_neg (by simpa using hne)]

theorem uniqueKeys_of_mem {members : List (String × Json)} (h : UniqueKeysMembers members)
    {member : String × Json} (hmem : member ∈ members) : UniqueKeys member.2 := by
  induction members with
  | nil => cases hmem
  | cons first members ih =>
    rcases List.mem_cons.mp hmem with rfl | hmem
    · exact h.1
    · exact ih h.2 hmem

theorem uniqueKeys_of_mem_elements {elements : List Json} (h : UniqueKeysElements elements)
    {child : Json} (hmem : child ∈ elements) : UniqueKeys child := by
  induction elements with
  | nil => cases hmem
  | cons first elements ih =>
    rcases List.mem_cons.mp hmem with rfl | hmem
    · exact h.1
    · exact ih h.2 hmem

/-! ### Induction -/

/-- What holds of the scalars, and of an object or an array when it holds of what they
hold, holds of every value. -/
theorem children_induction {P : Json → Prop} (hscalar : ∀ value, IsScalar value → P value)
    (hobject : ∀ members, (∀ member ∈ members, P member.2) → P (.object members))
    (harray : ∀ elements, (∀ child ∈ elements, P child) → P (.array elements)) :
    ∀ value, P value := by
  refine fun value => @Json.rec P (fun elements => ∀ child ∈ elements, P child)
    (fun members => ∀ member ∈ members, P member.2) (fun member => P member.2)
    (hscalar _ trivial) (fun b => hscalar _ trivial) (fun n => hscalar _ trivial)
    (fun s => hscalar _ trivial) harray hobject nofun ?_ nofun ?_ ?_ value
  · exact fun child elements hchild helements => List.forall_mem_cons.mpr ⟨hchild, helements⟩
  · exact fun member members hmember hmembers => List.forall_mem_cons.mpr ⟨hmember, hmembers⟩
  · exact fun key child hchild => hchild

/-- **A leaf is a scalar of the value, at its position.** -/
theorem follow_of_mem_leaves {value : Json} (h : UniqueKeys value) {leaf : Leaf}
    (hleaf : leaf ∈ leaves cut value) : IsScalar leaf.2 ∧ follow leaf.1 value = some leaf.2 := by
  induction value using children_induction generalizing leaf with
  | hscalar value hvalue =>
    rw [leaves_of_isScalar hvalue] at hleaf
    obtain rfl := List.mem_singleton.mp hleaf
    exact ⟨hvalue, rfl⟩
  | hobject members ih =>
    obtain ⟨member, hmember, inner, hinner, rfl⟩ := mem_leaves_object.mp hleaf
    obtain ⟨hkeys, hmembers⟩ := h
    obtain ⟨hscalar, hfollow⟩ := ih member hmember (uniqueKeys_of_mem hmembers hmember) hinner
    exact ⟨hscalar, Option.bind_eq_some_iff.mpr ⟨_, field?_of_mem hkeys hmember, hfollow⟩⟩
  | harray elements ih =>
    obtain ⟨i, child, -, hchild, inner, hinner, rfl⟩ := mem_elementLeaves.mp hleaf
    have hmem := List.mem_of_getElem? hchild
    obtain ⟨hscalar, hfollow⟩ := ih child hmem (uniqueKeys_of_mem_elements h hmem) hinner
    refine ⟨hscalar, Option.bind_eq_some_iff.mpr ⟨child, ?_, hfollow⟩⟩
    rw [Nat.zero_add]
    exact hchild

/-! ### One leaf a position -/

theorem map_fst_under (step : Step) (inner : List Leaf) :
    (inner.map (Leaf.under step)).map Prod.fst = (inner.map Prod.fst).map (step :: ·) := by
  rw [List.map_map, List.map_map]
  rfl

theorem nodup_under {step : Step} {inner : List Leaf} (h : (inner.map Prod.fst).Nodup) :
    ((inner.map (Leaf.under step)).map Prod.fst).Nodup := by
  rw [map_fst_under]
  exact h.map (List.cons_injective)

/-- Positions below different steps are different. -/
theorem disjoint_under {step step' : Step} (hne : step ≠ step') (inner inner' : List Leaf) :
    List.Disjoint ((inner.map (Leaf.under step)).map Prod.fst)
      ((inner'.map (Leaf.under step')).map Prod.fst) := by
  rw [map_fst_under, map_fst_under]
  intro path hpath hpath'
  obtain ⟨p, -, rfl⟩ := List.mem_map.mp hpath
  obtain ⟨q, -, hq⟩ := List.mem_map.mp hpath'
  exact hne (List.cons.inj hq).1.symm

theorem nodup_elementLeaves {start : ℕ} {elements : List Json}
    (h : ∀ child ∈ elements, ((leaves cut child).map Prod.fst).Nodup) :
    ((elementLeaves cut start elements).map Prod.fst).Nodup := by
  induction elements generalizing start with
  | nil => exact List.nodup_nil
  | cons child elements ih =>
    obtain ⟨hchild, helements⟩ := List.forall_mem_cons.mp h
    rw [elementLeaves]
    split
    · rw [List.map_append]
      refine List.Nodup.append (nodup_under hchild) (ih helements) fun path hpath hpath' => ?_
      -- the later elements have larger indices
      obtain ⟨leaf, hleaf, rfl⟩ := List.mem_map.mp hpath'
      obtain ⟨i, later, -, -, inner, -, rfl⟩ := mem_elementLeaves.mp hleaf
      rw [map_fst_under] at hpath
      obtain ⟨p, -, hp⟩ := List.mem_map.mp hpath
      have hindex := Step.index.inj (List.cons.inj hp).1
      omega
    · exact List.nodup_nil

/-- **No two leaves stand at one position.** -/
theorem nodup_leaves {value : Json} (h : UniqueKeys value) :
    ((leaves cut value).map Prod.fst).Nodup := by
  induction value using children_induction with
  | hscalar value hvalue =>
    rw [leaves_of_isScalar hvalue]
    exact List.nodup_singleton _
  | hobject members ih =>
    obtain ⟨hkeys, hmembers⟩ := h
    have hperm := Ranking.sortBy_perm Prod.fst members
    rw [leaves_object, List.map_flatMap, List.nodup_flatMap]
    constructor
    · intro member hmember
      have hmember := hperm.mem_iff.mp hmember
      exact nodup_under (ih member hmember (uniqueKeys_of_mem hmembers hmember))
    · have hsorted := ((hperm.map Prod.fst).nodup_iff).mpr hkeys
      exact (List.pairwise_map.mp hsorted).imp fun hne =>
        disjoint_under (fun heq => hne (Step.key.inj heq)) _ _
  | harray elements ih =>
    simp only [leaves]
    exact nodup_elementLeaves fun child hchild =>
      ih child hchild (uniqueKeys_of_mem_elements h hchild)

/-! ### Every scalar -/

/-- Every scalar of the value is a leaf: no array is cut. -/
def Exhausts (cut : ℕ) (value : Json) : Prop :=
  ∀ path x, follow path value = some x → IsScalar x → (path, x) ∈ leaves cut value

theorem exhausts_of_isScalar {value : Json} (h : IsScalar value) : Exhausts cut value := by
  intro path x hfollow hx
  rw [leaves_of_isScalar h]
  cases path with
  | nil =>
    obtain rfl := Option.some.inj hfollow
    exact List.mem_singleton_self _
  | cons step path =>
    obtain ⟨child, hchild, -⟩ := Option.bind_eq_some_iff.mp hfollow
    cases value with
    | object members => exact h.elim
    | array elements => exact h.elim
    | _ => cases step <;> cases hchild

theorem exhausts_object {members : List (String × Json)}
    (h : ∀ member ∈ members, Exhausts cut member.2) : Exhausts cut (.object members) := by
  intro path x hfollow hx
  cases path with
  | nil =>
    obtain rfl := Option.some.inj hfollow
    exact hx.elim
  | cons step path =>
    obtain ⟨child, hchild, hrest⟩ := Option.bind_eq_some_iff.mp hfollow
    cases step with
    | index i => cases hchild
    | key key =>
      obtain ⟨member, hfind, rfl⟩ := Option.map_eq_some_iff.mp hchild
      have hmember := List.mem_of_find?_eq_some hfind
      obtain rfl : member.1 = key := by simpa using List.find?_some hfind
      exact mem_leaves_object.mpr ⟨member, hmember, _, h member hmember path x hrest hx, rfl⟩

theorem exhausts_array {elements : List Json} (hlength : elements.length ≤ cut)
    (h : ∀ child ∈ elements, Exhausts cut child) : Exhausts cut (.array elements) := by
  intro path x hfollow hx
  cases path with
  | nil =>
    obtain rfl := Option.some.inj hfollow
    exact hx.elim
  | cons step path =>
    obtain ⟨child, hchild, hrest⟩ := Option.bind_eq_some_iff.mp hfollow
    cases step with
    | key key => cases hchild
    | index i =>
      have hi : i < elements.length := (List.getElem?_eq_some_iff.mp hchild).1
      refine mem_elementLeaves.mpr ⟨i, child, by omega, hchild, (path, x),
        h child (List.mem_of_getElem? hchild) path x hrest hx, ?_⟩
      rw [Nat.zero_add]
      rfl

end Json
