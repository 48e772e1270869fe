import LivefireRag.Projection.ExactAttributes

/-!
# The account of the exact attributes

The attributes are the first admissible ones among the first scalars of the event
(`attributes_exactVisit`), and every scalar that was scanned is kept or counted as left
out. So the result is sound and fully accounted for (`exact_attribute_subset_sound`):
each path resolves to its value, the counts add up, and when the event need not be read
again, no scalar of it is missing.
-/

namespace LivefireRag.Projection

open Json

variable {engine : TextEngine}

/-! ### One scalar more -/

/-- What a scalar does to the scan: it is kept, or counted under one reason. -/
theorem exactScalar_cases (scalar : Json) (pointer semanticPath : String) (scan : ExactScan) :
    (omissionReason engine pointer semanticPath scalar = none ∧
        scan.attributes.length < maxExactAttributes ∧
        (exactScalar engine scalar pointer semanticPath scan).attributes =
          scan.attributes ++ [⟨"ocsf", pointer, scalar⟩] ∧
        (exactScalar engine scalar pointer semanticPath scan).omissions = scan.omissions) ∨
      (¬ (omissionReason engine pointer semanticPath scalar = none ∧
          scan.attributes.length < maxExactAttributes) ∧
        (exactScalar engine scalar pointer semanticPath scan).attributes = scan.attributes ∧
        (exactScalar engine scalar pointer semanticPath scan).omissions.values.sum =
          scan.omissions.values.sum + 1) := by
  unfold exactScalar
  dsimp only
  split
  · next reason hreason =>
    refine .inr ⟨fun h => ?_, rfl, Grouping.sum_values_upsert _ _ _⟩
    rw [hreason] at h
    cases h.1
  · next hnone =>
    split
    · next hfull =>
      exact .inr ⟨fun h => absurd h.2 (not_lt.mpr hfull), rfl, Grouping.sum_values_upsert _ _ _⟩
    · next hroom => exact .inl ⟨hnone, not_le.mp hroom, rfl, rfl⟩

/-! ### A whole scan -/

/-- No guard leaves the scalar out. -/
def Admissible (engine : TextEngine) (leaf : Leaf) : Prop :=
  omissionReason engine (pointerText leaf.1) (semanticText leaf.1) leaf.2 = none

instance : DecidablePred (Admissible engine) := fun leaf => by unfold Admissible; infer_instance

def attributeOf (leaf : Leaf) : ExactAttribute := ⟨"ocsf", pointerText leaf.1, leaf.2⟩

/-- The leaves that are kept. -/
def keptLeaves (engine : TextEngine) (found : List Leaf) : List Leaf :=
  ((found.take maxExactScalarsScanned).filter fun leaf => Admissible engine leaf).take
    maxExactAttributes

/-- What a scan of leaves comes to. -/
structure Scanned (engine : TextEngine) (found : List Leaf) (scan : ExactScan) : Prop where
  scanned : scan.scanned = min maxExactScalarsScanned found.length
  attributes : scan.attributes = (keptLeaves engine found).map attributeOf
  accounted : scan.attributes.length + scan.omissions.values.sum = scan.scanned

/-- One leaf past the limit changes nothing. -/
theorem keptLeaves_concat_of_limit {found : List Leaf} {leaf : Leaf}
    (h : maxExactScalarsScanned ≤ found.length) :
    keptLeaves engine (found ++ [leaf]) = keptLeaves engine found := by
  rw [keptLeaves, List.take_append_of_le_length h, keptLeaves]

theorem keptLeaves_concat {found : List Leaf} {leaf : Leaf}
    (h : found.length < maxExactScalarsScanned) :
    keptLeaves engine (found ++ [leaf]) =
      if Admissible engine leaf ∧ (keptLeaves engine found).length < maxExactAttributes then
        keptLeaves engine found ++ [leaf]
      else keptLeaves engine found := by
  have hall : (found ++ [leaf]).take maxExactScalarsScanned = found ++ [leaf] :=
    List.take_of_length_le (by rw [List.length_append, List.length_singleton]; omega)
  have hfound : found.take maxExactScalarsScanned = found := List.take_of_length_le h.le
  rw [keptLeaves, keptLeaves, hall, hfound, List.filter_append]
  generalize found.filter (fun leaf => Admissible engine leaf) = kept
  by_cases hleaf : Admissible engine leaf
  · have hfilter : [leaf].filter (fun leaf => Admissible engine leaf) = [leaf] := by simp [hleaf]
    rw [hfilter, List.length_take]
    simp only [hleaf, true_and]
    by_cases hroom : kept.length < maxExactAttributes
    · rw [if_pos (by omega), List.take_of_length_le hroom.le, List.take_of_length_le (by
        rw [List.length_append, List.length_singleton]; omega)]
    · rw [if_neg (by omega), List.take_append_of_le_length (not_lt.mp hroom)]
  · have hfilter : [leaf].filter (fun leaf => Admissible engine leaf) = [] := by simp [hleaf]
    rw [hfilter, List.append_nil]
    simp only [hleaf, false_and, if_false]

theorem scanned_foldl (engine : TextEngine) (found : List Leaf) :
    Scanned engine found (found.foldl (scanLeaf engine []) ⟨[], SortedMap.empty, 0⟩) := by
  induction found using List.reverseRecOn with
  | nil => exact ⟨rfl, rfl, rfl⟩
  | append_singleton found leaf ih =>
    rw [List.foldl_append, List.foldl_cons, List.foldl_nil]
    generalize found.foldl (scanLeaf engine []) ⟨[], SortedMap.empty, 0⟩ = scan at ih
    obtain ⟨hscanned, hattributes, haccounted⟩ := ih
    have hlength : (found ++ [leaf]).length = found.length + 1 := by
      rw [List.length_append, List.length_singleton]
    by_cases hlimit : maxExactScalarsScanned ≤ scan.scanned
    · rw [scanLeaf, if_pos hlimit]
      refine ⟨by rw [hlength]; omega, ?_, haccounted⟩
      rw [hattributes, keptLeaves_concat_of_limit (by omega)]
    · rw [scanLeaf, if_neg hlimit, List.nil_append]
      have hcount := scanned_exactScalar engine leaf.2 (pointerText leaf.1) (semanticText leaf.1)
        scan
      have hkept : (keptLeaves engine found).length = scan.attributes.length := by
        rw [hattributes, List.length_map]
      have hscan : found.length < maxExactScalarsScanned := by omega
      rcases @exactScalar_cases engine leaf.2 (pointerText leaf.1)
        (semanticText leaf.1) scan with ⟨hnone, hroom, hattr, homit⟩ | ⟨hnot, hattr, homit⟩
      · refine ⟨by rw [hcount, hlength]; omega, ?_, ?_⟩
        · rw [hattr, keptLeaves_concat hscan, if_pos ⟨hnone, hkept ▸ hroom⟩, List.map_append,
            ← hattributes]
          rfl
        · rw [hattr, homit, hcount, List.length_append, List.length_singleton]
          omega
      · refine ⟨by rw [hcount, hlength]; omega, ?_, ?_⟩
        · rw [hattr, keptLeaves_concat hscan, if_neg (by rw [hkept]; exact hnot), hattributes]
        · rw [hattr, homit, hcount]
          omega

/-! ### The result -/

/-- The leaves of an event, each list cut. -/
def eventLeaves (root : Json) : List Leaf := leaves maxExactListItems root

/-- **The attributes of an event are its first admissible leaves**, by their pointers. -/
theorem attributes_exactAttributeSubset (engine : TextEngine) (root : Json) :
    (exactAttributeSubset engine root).1 = Ranking.sortBy ExactAttribute.path
      ((keptLeaves engine (eventLeaves root)).map attributeOf) := by
  obtain ⟨hwalk, -⟩ := @visitWalks engine root [] ⟨⟨[], SortedMap.empty, 0⟩, false, 0⟩
  have hscan := (scanned_foldl engine (eventLeaves root)).attributes
  show Ranking.sortBy ExactAttribute.path (exactVisit engine root _ _ _).attributes = _
  rw [← hscan, eventLeaves, ← hwalk.scan]
  rfl

theorem mem_keptLeaves {found : List Leaf} {leaf : Leaf} (h : leaf ∈ keptLeaves engine found) :
    leaf ∈ found ∧ Admissible engine leaf := by
  obtain ⟨hmem, hadmissible⟩ := List.mem_filter.mp (List.mem_of_mem_take h)
  exact ⟨List.mem_of_mem_take hmem, of_decide_eq_true hadmissible⟩

/-- The pointers of the kept leaves are distinct. -/
theorem nodup_keptLeaves {root : Json} (h : UniqueKeys root) :
    (((keptLeaves engine (eventLeaves root)).map attributeOf).map ExactAttribute.path).Nodup := by
  have hsub : (keptLeaves engine (eventLeaves root)).Sublist (eventLeaves root) :=
    (List.take_sublist _ _).trans (List.filter_sublist.trans (List.take_sublist _ _))
  have hpaths := (hsub.map Prod.fst).nodup (nodup_leaves h)
  rw [List.map_map, List.nodup_map_iff_inj_on (List.Nodup.of_map _ hpaths)]
  intro leaf hleaf leaf' hleaf' heq
  have hfollow := (follow_of_mem_leaves h (hsub.subset hleaf)).2
  have hfollow' := (follow_of_mem_leaves h (hsub.subset hleaf')).2
  exact List.inj_on_of_nodup_map hpaths hleaf hleaf' (eq_of_pointerText hfollow hfollow' heq)

/-- What the result says about the attributes and the counts. -/
structure SoundAccount (root : Json) (attributes : List ExactAttribute)
    (projection : ExactAttributeProjection) : Prop where
  ascending : attributes.Pairwise fun a b => a.path < b.path
  distinct : (attributes.map ExactAttribute.path).Nodup
  resolves : ∀ a ∈ attributes, resolve a.path root = some a.value
  selected : projection.selectedCount = attributes.length
  accounted : projection.selectedCount + projection.knownOmittedScalarCount =
    projection.scalarsScanned
  omitted : (projection.omissionCounts.map OmissionCount.count).sum =
    projection.knownOmittedScalarCount
  complete : projection.sourceHydrationRequired = false → ∀ pointer scalar,
    resolve pointer root = some scalar → IsScalar scalar →
    ∃ a ∈ attributes, a.path = pointer ∧ a.value = scalar

/-- **The exact attributes are sound and fully accounted for**, for every event. -/
theorem exact_attribute_subset_sound (engine : TextEngine) {root : Json} (h : UniqueKeys root) :
    SoundAccount root (exactAttributeSubset engine root).1
      (exactAttributeSubset engine root).2 := by
  let state := exactVisit engine root "" "" ⟨⟨[], SortedMap.empty, 0⟩, false, 0⟩
  obtain ⟨hwalk, hexhausts⟩ :=
    @visitWalks engine root [] ⟨⟨[], SortedMap.empty, 0⟩, false, 0⟩
  obtain ⟨-, hattributes, haccounted⟩ : Scanned engine (eventLeaves root) state.toExactScan := by
    have hscan : state.toExactScan = _ := hwalk.scan
    rw [hscan]
    exact scanned_foldl engine (eventLeaves root)
  have hsubset := attributes_exactAttributeSubset engine root
  have hmem : ∀ a, a ∈ (exactAttributeSubset engine root).1 ↔
      ∃ leaf ∈ keptLeaves engine (eventLeaves root), attributeOf leaf = a := by
    intro a
    rw [hsubset, Ranking.mem_sortBy, List.mem_map]
  have hsum : (exactAttributeSubset engine root).2.knownOmittedScalarCount =
      state.omissions.values.sum := by
    show ((state.omissions.entries.map _).map OmissionCount.count).sum = _
    rw [List.map_map]
    rfl
  have hlength : (exactAttributeSubset engine root).2.selectedCount = state.attributes.length :=
    Ranking.length_sortBy
  have hlt := Ranking.sortBy_pairwise_lt (@nodup_keptLeaves engine _ h)
  rw [← hsubset] at hlt
  refine ⟨hlt, ?_, ?_, rfl, ?_, rfl, ?_⟩
  · exact (List.pairwise_map.mpr (hlt.imp fun hlt => hlt.ne))
  · intro a ha
    obtain ⟨leaf, hleaf, rfl⟩ := (hmem a).mp ha
    obtain ⟨-, hfollow⟩ := follow_of_mem_leaves h (mem_keptLeaves hleaf).1
    exact resolve_eq_some.mpr ⟨leaf.1, rfl, hfollow⟩
  · rw [hlength, hsum]
    exact haccounted
  · intro hneeded pointer scalar hresolve hscalar
    obtain ⟨hnone, hwhole⟩ : state.omissions.values.sum = 0 ∧ state.truncated = false := by
      rw [← hsum]
      have hneeded := of_decide_eq_false hneeded
      exact ⟨Nat.eq_zero_of_not_pos fun hpos => hneeded (.inl hpos),
        by simpa using fun htrue => hneeded (.inr htrue)⟩
    obtain ⟨path, rfl, hfollow⟩ := resolve_eq_some.mp hresolve
    have hleaf : (path, scalar) ∈ eventLeaves root :=
      hexhausts hwhole path scalar hfollow hscalar
    -- as many leaves are kept as there are
    have hall : keptLeaves engine (eventLeaves root) = eventLeaves root := by
      have hcount : state.scanned = 0 + (eventLeaves root).length := hwalk.scanned hwhole
      have hkept := congrArg List.length hattributes
      rw [List.length_map] at hkept
      have hsub : (keptLeaves engine (eventLeaves root)).Sublist (eventLeaves root) :=
        (List.take_sublist _ _).trans (List.filter_sublist.trans (List.take_sublist _ _))
      refine hsub.eq_of_length ?_
      omega
    exact ⟨_, (hmem _).mpr ⟨_, hall ▸ hleaf, rfl⟩, rfl, rfl⟩

/-! ### A small event -/

/-- An engine on texts of lowercase letters, in which no pattern matches. -/
def plainEngine : TextEngine := ⟨fun _ _ => [], id⟩

def sampleEvent : Json :=
  .object [("port", .number (.posInt 5)), ("zone", .object [("uid", .null)])]

theorem sampleEvent_uniqueKeys : UniqueKeys sampleEvent := by
  simp [sampleEvent, UniqueKeys, UniqueKeysMembers]

theorem eventLeaves_sampleEvent : eventLeaves sampleEvent =
    [([.key "port"], .number (.posInt 5)), ([.key "zone", .key "uid"], .null)] := by
  have hzone : leaves maxExactListItems (.object [("uid", .null)]) = [([.key "uid"], .null)] := by
    rw [leaves_object, Ranking.sortBy_of_pairwise (List.pairwise_singleton _ _)]
    rfl
  rw [eventLeaves, sampleEvent, leaves_object, Ranking.sortBy_of_pairwise (by decide)]
  simp only [List.flatMap_cons, List.flatMap_nil, hzone]
  rfl

/-- One attribute of two scalars; the other is counted. -/
theorem sample_event_sound :
    (exactAttributeSubset plainEngine sampleEvent).1 = [⟨"ocsf", "/port", .number (.posInt 5)⟩] ∧
      SoundAccount sampleEvent (exactAttributeSubset plainEngine sampleEvent).1
        (exactAttributeSubset plainEngine sampleEvent).2 := by
  refine ⟨?_, exact_attribute_subset_sound plainEngine sampleEvent_uniqueKeys⟩
  have hkept : (keptLeaves plainEngine (eventLeaves sampleEvent)).map attributeOf =
      [⟨"ocsf", "/port", .number (.posInt 5)⟩] := by
    rw [eventLeaves_sampleEvent]
    decide
  rw [attributes_exactAttributeSubset, hkept,
    Ranking.sortBy_of_pairwise (List.pairwise_singleton _ _)]

end LivefireRag.Projection
