import LivefireRag.Lib.Grouping
import LivefireRag.Lib.JsonLeaves
import LivefireRag.Projection.FieldNames

/-!
# Exact attributes

The scalars of an event that are kept as they are, with their pointers
(`exact_attribute_subset`). A walk in key order scans a bounded number of scalars; each
scalar it scans is kept or counted under the reason it is left out for.
-/

namespace LivefireRag.Projection

open Json

def maxExactAttributes : ℕ := 256
def maxExactScalarsScanned : ℕ := 512
def maxExactListItems : ℕ := 64
def maxExactStringUtf8Bytes : ℕ := 1024
def maxExactPathChars : ℕ := 1024
def maxJcsSafeInteger : ℤ := 2 ^ 53 - 1

structure ExactAttribute where
  attributeNamespace : String
  path : String
  value : Json
  deriving DecidableEq

structure OmissionCount where
  reason : String
  count : ℕ
  deriving DecidableEq

structure ExactAttributeProjection where
  selectedCount : ℕ
  scalarsScanned : ℕ
  knownOmittedScalarCount : ℕ
  omittedSubtreeCount : ℕ
  omissionCounts : List OmissionCount
  scanTruncated : Bool
  sourceHydrationRequired : Bool
  deriving DecidableEq

/-- What the scalars that were scanned came to. -/
structure ExactScan where
  attributes : List ExactAttribute
  omissions : SortedMap String ℕ
  scanned : ℕ

structure ExactState extends ExactScan where
  truncated : Bool
  omittedSubtrees : ℕ

/-! ### One scalar -/

/-- The number as a signed integer of 64 bits, where it is one. -/
def asI64 : JsonNumber → Option ℤ
  | .posInt n => if n < 2 ^ 63 then some n else none
  | .negInt n => some (-(n + 1))
  | .float _ => none

/-- The reason a scalar is left out for, before the number of attributes is looked at. -/
def omissionReason (engine : TextEngine) (pointer semanticPath : String) (scalar : Json) :
    Option String :=
  if scalar = .null then some "null_value"
  else if maxExactPathChars < pointer.length then some "oversize_path"
  else if isSecret engine semanticPath then some "secret_field"
  else if isFreeText engine semanticPath then some "free_text_field"
  else match scalar with
    | .string text =>
      if maxExactStringUtf8Bytes < text.utf8ByteSize then some "oversize_string"
      else if hasUnsafeCredentialText engine text then some "unsafe_credential_value"
      else none
    | .number n =>
      match asI64 n with
      | some integer =>
        if ¬ (-maxJcsSafeInteger ≤ integer ∧ integer ≤ maxJcsSafeInteger) then
          some "non_jcs_safe_integer"
        else none
      | none => none
    | _ => none

/-- One more scalar left out for a reason. -/
def ExactScan.omit (scan : ExactScan) (reason : String) : ExactScan :=
  { scan with omissions := Grouping.upsert (· + ·) scan.omissions (reason, 1) }

def exactScalar (engine : TextEngine) (scalar : Json) (pointer semanticPath : String)
    (scan : ExactScan) : ExactScan :=
  let scan := { scan with scanned := scan.scanned + 1 }
  match omissionReason engine pointer semanticPath scalar with
  | some reason => scan.omit reason
  | none =>
    if maxExactAttributes ≤ scan.attributes.length then scan.omit "attribute_limit"
    else { scan with attributes := scan.attributes ++ [⟨"ocsf", pointer, scalar⟩] }

/-! ### The walk -/

def childPointer (pointer key : String) : String :=
  pointer ++ "/" ++ Text.replace (Text.replace key "~" "~0") "/" "~1"

def childSemantic (semanticPath key : String) : String :=
  if semanticPath = "" then key else semanticPath ++ "." ++ key

def itemPointer (pointer : String) (index : ℕ) : String := pointer ++ "/" ++ toString index

def itemSemantic (semanticPath : String) (index : ℕ) : String :=
  semanticPath ++ "[" ++ toString index ++ "]"

mutual

def exactVisit (engine : TextEngine) (value : Json) (pointer semanticPath : String)
    (state : ExactState) : ExactState :=
  if maxExactScalarsScanned ≤ state.scanned then
    { state with truncated := true, omittedSubtrees := state.omittedSubtrees + 1 }
  else match value with
    | .object members =>
      (Ranking.sortBy Prod.fst (memberVisits engine members pointer semanticPath)).foldl
        (fun state row => row.2 state) state
    | .array items =>
      let state := itemVisits engine 0 items pointer semanticPath state
      if maxExactListItems < items.length then
        { state with
          truncated := true
          omittedSubtrees := state.omittedSubtrees + (items.length - maxExactListItems) }
      else state
    | scalar => { state with
        toExactScan := exactScalar engine scalar pointer semanticPath state.toExactScan }

/-- The visit of each member, by its key. -/
def memberVisits (engine : TextEngine) (members : List (String × Json))
    (pointer semanticPath : String) : List (String × (ExactState → ExactState)) :=
  match members with
  | [] => []
  | (key, child) :: members =>
    (key, exactVisit engine child (childPointer pointer key) (childSemantic semanticPath key)) ::
      memberVisits engine members pointer semanticPath

/-- The visits of the items from an index on. -/
def itemVisits (engine : TextEngine) (index : ℕ) (items : List Json)
    (pointer semanticPath : String) (state : ExactState) : ExactState :=
  match items with
  | [] => state
  | child :: items =>
    if index < maxExactListItems then
      itemVisits engine (index + 1) items pointer semanticPath
        (exactVisit engine child (itemPointer pointer index) (itemSemantic semanticPath index)
          state)
    else state

end

def exactAttributeSubset (engine : TextEngine) (root : Json) :
    List ExactAttribute × ExactAttributeProjection :=
  let state := exactVisit engine root "" "" ⟨⟨[], SortedMap.empty, 0⟩, false, 0⟩
  let attributes := Ranking.sortBy ExactAttribute.path state.attributes
  let omissionCounts := state.omissions.entries.map fun entry => OmissionCount.mk entry.1 entry.2
  let knownOmittedScalarCount := (omissionCounts.map OmissionCount.count).sum
  (attributes,
    { selectedCount := attributes.length
      scalarsScanned := state.scanned
      knownOmittedScalarCount := knownOmittedScalarCount
      omittedSubtreeCount := state.omittedSubtrees
      omissionCounts := omissionCounts
      scanTruncated := state.truncated
      sourceHydrationRequired := 0 < knownOmittedScalarCount ∨ state.truncated })

theorem scanned_exactScalar (engine : TextEngine) (scalar : Json) (pointer semanticPath : String)
    (scan : ExactScan) :
    (exactScalar engine scalar pointer semanticPath scan).scanned = scan.scanned + 1 := by
  unfold exactScalar
  dsimp only
  split
  · rfl
  · split <;> rfl

/-! ### The texts of a position -/

def semanticStep (semanticPath : String) : Step → String
  | .key k => childSemantic semanticPath k
  | .index i => itemSemantic semanticPath i

/-- The path of a position that names are taken from. -/
def semanticText (path : List Step) : String := path.foldl semanticStep ""

theorem semanticText_concat (path : List Step) (step : Step) :
    semanticText (path ++ [step]) = semanticStep (semanticText path) step := by
  rw [semanticText, List.foldl_append]
  rfl

theorem pointerText_concat (path : List Step) (step : Step) :
    pointerText (path ++ [step]) =
      pointerText path ++ "/" ++ String.ofList (escape step.token.toList) := by
  apply String.toList_injective
  simp [pointerText]

/-- The two replacements in the source escape a key. -/
theorem childPointer_pointerText (path : List Step) (key : String) :
    childPointer (pointerText path) key = pointerText (path ++ [.key key]) := by
  have hescape : Text.replace (Text.replace key "~" "~0") "/" "~1" =
      String.ofList (escape key.toList) := by
    have htilde : "~".toList = ['~'] := rfl
    have hslash : "/".toList = ['/'] := rfl
    have hzero : "~0".toList = ['~', '0'] := rfl
    have hone : "~1".toList = ['~', '1'] := rfl
    rw [Text.replace, Text.replace, htilde, hslash, hzero, hone, Text.replaceFrom_singleton,
      Text.replaceFrom_singleton, String.toList_ofList, List.flatMap_assoc, escape]
    congr 2
    funext c
    by_cases hc : c = '~'
    · rw [if_pos hc, escapeChar, if_pos hc]
      rfl
    · rw [if_neg hc, escapeChar, if_neg hc, List.flatMap_singleton]
  rw [pointerText_concat, childPointer, hescape]
  rfl

theorem itemPointer_pointerText (path : List Step) (index : ℕ) :
    itemPointer (pointerText path) index = pointerText (path ++ [.index index]) := by
  have hchar : ∀ c ∈ (toString index).toList, escapeChar c = [c] := by
    intro c hc
    have hdigits : c ∈ Nat.toDigits 10 index := by rwa [← Nat.toList_repr]
    have hdigit := Nat.isDigit_of_mem_toDigits (by decide) (by decide) hdigits
    rw [escapeChar, if_neg, if_neg]
    · rintro rfl
      exact absurd hdigit (by decide)
    · rintro rfl
      exact absurd hdigit (by decide)
  have hescape : escape (toString index).toList = (toString index).toList := by
    rw [escape, List.flatMap_congr hchar, List.flatMap_singleton']
  rw [pointerText_concat, itemPointer]
  show _ = _ ++ String.ofList (escape (toString index).toList)
  rw [hescape, String.ofList_toList]

/-! ### What the walk scans -/

/-- A leaf below a position, while the scan goes on. -/
def scanLeaf (engine : TextEngine) (base : List Step) (scan : ExactScan) (leaf : Leaf) :
    ExactScan :=
  if maxExactScalarsScanned ≤ scan.scanned then scan
  else exactScalar engine leaf.2 (pointerText (base ++ leaf.1)) (semanticText (base ++ leaf.1)) scan

section Walk

variable {engine : TextEngine}

theorem foldl_scanLeaf_under (base : List Step) (step : Step) (found : List Leaf)
    (scan : ExactScan) : (found.map (Leaf.under step)).foldl (scanLeaf engine base) scan =
      found.foldl (scanLeaf engine (base ++ [step])) scan := by
  rw [List.foldl_map]
  refine List.foldl_ext _ _ _ fun scan leaf _ => ?_
  simp only [scanLeaf, Leaf.under, List.append_assoc, List.singleton_append]

theorem foldl_scanLeaf_of_limit {base : List Step} {scan : ExactScan} (found : List Leaf)
    (h : maxExactScalarsScanned ≤ scan.scanned) : found.foldl (scanLeaf engine base) scan = scan := by
  induction found with
  | nil => rfl
  | cons leaf found ih => rw [List.foldl_cons, scanLeaf, if_pos h, ih]

/-- From one state to another by scanning leaves. What is said about a walk that was not
truncated holds of every part of it. -/
structure Walked (engine : TextEngine) (base : List Step) (found : List Leaf)
    (state state' : ExactState) : Prop where
  scan : state'.toExactScan = found.foldl (scanLeaf engine base) state.toExactScan
  truncated : state.truncated = true → state'.truncated = true
  scanned : state'.truncated = false → state'.scanned = state.scanned + found.length

/-- A walk that was not truncated was not truncated before. -/
theorem Walked.whole {base : List Step} {found : List Leaf} {state state' : ExactState}
    (h : Walked engine base found state state') (hwhole : state'.truncated = false) :
    state.truncated = false := by
  by_contra htrue
  rw [h.truncated (by simpa using htrue)] at hwhole
  cases hwhole

theorem Walked.under {base : List Step} {step : Step} {found : List Leaf}
    {state state' : ExactState} (h : Walked engine (base ++ [step]) found state state') :
    Walked engine base (found.map (Leaf.under step)) state state' where
  scan := by rw [foldl_scanLeaf_under, h.scan]
  truncated := h.truncated
  scanned := by
    rw [List.length_map]
    exact h.scanned

theorem Walked.append {base : List Step} {found found' : List Leaf}
    {state state' state'' : ExactState} (h : Walked engine base found state state')
    (h' : Walked engine base found' state' state'') :
    Walked engine base (found ++ found') state state'' where
  scan := by rw [List.foldl_append, ← h.scan, h'.scan]
  truncated := fun ht => h'.truncated (h.truncated ht)
  scanned := by
    intro hwhole
    rw [h'.scanned hwhole, h.scanned (h'.whole hwhole), List.length_append, Nat.add_assoc]

theorem Walked.nil (base : List Step) (state : ExactState) : Walked engine base [] state state :=
  ⟨rfl, id, fun _ => rfl⟩

/-- Past the limit nothing is scanned, and the walk is truncated. -/
theorem walked_of_limit {base : List Step} {found : List Leaf} {state : ExactState}
    (h : maxExactScalarsScanned ≤ state.scanned) (omitted : ℕ) :
    Walked engine base found state
      { state with truncated := true, omittedSubtrees := omitted } where
  scan := (foldl_scanLeaf_of_limit found h).symm
  truncated := fun _ => rfl
  scanned := nofun

theorem memberVisits_eq_map (members : List (String × Json)) (pointer semanticPath : String) :
    memberVisits engine members pointer semanticPath = members.map fun member =>
      (member.1, exactVisit engine member.2 (childPointer pointer member.1)
        (childSemantic semanticPath member.1)) := by
  induction members with
  | nil => rfl
  | cons member members ih => rw [memberVisits, List.map_cons, ih]

/-- The visit of a value walks its leaves, and all its scalars unless it is truncated. -/
def VisitWalks (engine : TextEngine) (value : Json) : Prop :=
  ∀ base state, Walked engine base (leaves maxExactListItems value) state
      (exactVisit engine value (pointerText base) (semanticText base) state) ∧
    ((exactVisit engine value (pointerText base) (semanticText base) state).truncated = false →
      Exhausts maxExactListItems value)

theorem visitWalks_scalar {value : Json} (h : IsScalar value) : VisitWalks engine value := by
  intro base state
  refine ⟨?_, fun _ => exhausts_of_isScalar h⟩
  rw [leaves_of_isScalar h]
  by_cases hlimit : maxExactScalarsScanned ≤ state.scanned
  · rw [exactVisit.eq_def, if_pos hlimit]
    exact walked_of_limit hlimit _
  · have hvisit : exactVisit engine value (pointerText base) (semanticText base) state =
        { state with toExactScan :=
          exactScalar engine value (pointerText base) (semanticText base) state.toExactScan } := by
      rw [exactVisit.eq_def, if_neg hlimit]
      cases value with
      | object members => exact h.elim
      | array elements => exact h.elim
      | _ => rfl
    rw [hvisit]
    refine ⟨?_, id, fun _ => ?_⟩
    · simp only [List.foldl_cons, List.foldl_nil, scanLeaf, if_neg hlimit, List.append_nil]
    · exact scanned_exactScalar engine value _ _ state.toExactScan

theorem visitWalks_object {members : List (String × Json)}
    (h : ∀ member ∈ members, VisitWalks engine member.2) : VisitWalks engine (.object members) := by
  intro base state
  by_cases hlimit : maxExactScalarsScanned ≤ state.scanned
  · rw [exactVisit.eq_def, if_pos hlimit]
    exact ⟨walked_of_limit hlimit _, nofun⟩
  · let rows := Ranking.sortBy Prod.fst members
    let visit : ExactState → String × Json → ExactState := fun state member =>
      exactVisit engine member.2 (childPointer (pointerText base) member.1)
        (childSemantic (semanticText base) member.1) state
    have hvisit : exactVisit engine (.object members) (pointerText base) (semanticText base) state =
        rows.foldl visit state := by
      rw [exactVisit.eq_def, if_neg hlimit]
      show List.foldl _ _ (Ranking.sortBy Prod.fst (memberVisits engine members _ _)) = _
      rw [memberVisits_eq_map, Ranking.sortBy_map_of_key _ (fun _ => rfl), List.foldl_map]
    have hrows : ∀ member ∈ rows, VisitWalks engine member.2 := fun member hmember =>
      h member (Ranking.mem_sortBy.mp hmember)
    rw [hvisit, leaves_object]
    -- the members one after another, in key order
    have hwalk : ∀ (rows : List (String × Json)) (state : ExactState),
        (∀ member ∈ rows, VisitWalks engine member.2) →
        Walked engine base (rows.flatMap fun member =>
            (leaves maxExactListItems member.2).map (Leaf.under (.key member.1))) state
          (rows.foldl visit state) ∧
        ((rows.foldl visit state).truncated = false →
          ∀ member ∈ rows, Exhausts maxExactListItems member.2) := by
      intro rows
      induction rows with
      | nil => exact fun state _ => ⟨Walked.nil base state, fun _ => nofun⟩
      | cons member rows ih =>
        intro state hrows
        obtain ⟨hmember, hrows⟩ := List.forall_mem_cons.mp hrows
        obtain ⟨hfirst, hexhausts⟩ := hmember (base ++ [.key member.1]) state
        rw [← childPointer_pointerText, semanticText_concat] at hfirst hexhausts
        obtain ⟨hrest, hall⟩ := ih (visit state member) hrows
        refine ⟨(hfirst.under).append hrest, fun hwhole => ?_⟩
        exact List.forall_mem_cons.mpr ⟨hexhausts (hrest.whole hwhole), hall hwhole⟩
    obtain ⟨hwalked, hall⟩ := hwalk rows state hrows
    refine ⟨hwalked, fun hwhole => exhausts_object fun member hmember => ?_⟩
    exact hall hwhole member (Ranking.mem_sortBy.mpr hmember)

theorem walked_itemVisits {items : List Json} (h : ∀ child ∈ items, VisitWalks engine child)
    (base : List Step) (index : ℕ) (state : ExactState) :
    Walked engine base (elementLeaves maxExactListItems index items) state
        (itemVisits engine index items (pointerText base) (semanticText base) state) ∧
      ((itemVisits engine index items (pointerText base) (semanticText base) state).truncated =
          false → index + items.length ≤ maxExactListItems →
        ∀ child ∈ items, Exhausts maxExactListItems child) := by
  induction items generalizing index state with
  | nil => exact ⟨Walked.nil base state, fun _ _ => nofun⟩
  | cons child items ih =>
    obtain ⟨hchild, hitems⟩ := List.forall_mem_cons.mp h
    rw [elementLeaves, itemVisits]
    by_cases hindex : index < maxExactListItems
    · rw [if_pos hindex, if_pos hindex]
      obtain ⟨hfirst, hexhausts⟩ := hchild (base ++ [.index index]) state
      rw [← itemPointer_pointerText, semanticText_concat] at hfirst hexhausts
      obtain ⟨hrest, hall⟩ := ih hitems (index + 1) (exactVisit engine child _ _ state)
      refine ⟨(hfirst.under).append hrest, fun hwhole hshort => ?_⟩
      rw [List.length_cons] at hshort
      exact List.forall_mem_cons.mpr ⟨hexhausts (hrest.whole hwhole), hall hwhole (by omega)⟩
    · rw [if_neg hindex, if_neg hindex]
      refine ⟨Walked.nil base state, fun _ hshort => ?_⟩
      rw [List.length_cons] at hshort
      omega

theorem visitWalks_array {items : List Json} (h : ∀ child ∈ items, VisitWalks engine child) :
    VisitWalks engine (.array items) := by
  intro base state
  by_cases hlimit : maxExactScalarsScanned ≤ state.scanned
  · rw [exactVisit.eq_def, if_pos hlimit]
    exact ⟨walked_of_limit hlimit _, fun hwhole => by cases hwhole⟩
  · obtain ⟨hwalked, hall⟩ := walked_itemVisits h base 0 state
    have hleaves : leaves maxExactListItems (.array items) =
        elementLeaves maxExactListItems 0 items := by rw [leaves]
    rw [exactVisit.eq_def, if_neg hlimit, hleaves]
    by_cases hlong : maxExactListItems < items.length
    · simp only [if_pos hlong]
      exact ⟨⟨hwalked.scan, fun _ => rfl, fun hwhole => by cases hwhole⟩,
        fun hwhole => by cases hwhole⟩
    · simp only [if_neg hlong]
      refine ⟨hwalked, fun hwhole => exhausts_array (not_lt.mp hlong) (hall hwhole ?_)⟩
      rw [Nat.zero_add]
      exact not_lt.mp hlong

/-- **The walk scans the leaves in order.** -/
theorem visitWalks (value : Json) : VisitWalks engine value := by
  induction value using children_induction with
  | hscalar value hvalue => exact visitWalks_scalar hvalue
  | hobject members ih => exact visitWalks_object ih
  | harray items ih => exact visitWalks_array ih

end Walk

end LivefireRag.Projection
