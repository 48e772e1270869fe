import LivefireRag.Projection.Accounting

/-!
# What the exact attributes may hold

A kept attribute passed the guards of the walk. They keep secrets, free text, long texts
and credentials out. The guard of integers looks at signed integers of 64 bits, so it
does not see an integer above them: the attributes are safe exactly when none of those
gets through the other guards within the limits (`safe_attributes_iff`).
-/

namespace LivefireRag.Projection

open Json

variable {engine : TextEngine}

/-! ### The guards -/

/-- A scalar passes when each guard lets it through. -/
theorem omissionReason_eq_none {pointer semanticPath : String} {scalar : Json} :
    omissionReason engine pointer semanticPath scalar = none ↔
      scalar ≠ .null ∧ pointer.length ≤ maxExactPathChars ∧ ¬ isSecret engine semanticPath ∧
        ¬ isFreeText engine semanticPath ∧
        (∀ text, scalar = .string text → text.utf8ByteSize ≤ maxExactStringUtf8Bytes ∧
          ¬ hasUnsafeCredentialText engine text) ∧
        ∀ n, scalar = .number n → ∀ integer, asI64 n = some integer →
          -maxJcsSafeInteger ≤ integer ∧ integer ≤ maxJcsSafeInteger := by
  unfold omissionReason
  by_cases hnull : scalar = .null
  · rw [if_pos hnull]
    exact iff_of_false nofun fun h => h.1 hnull
  by_cases hpath : maxExactPathChars < pointer.length
  · rw [if_neg hnull, if_pos hpath]
    exact iff_of_false nofun fun h => absurd h.2.1 (not_le.mpr hpath)
  by_cases hsecret : isSecret engine semanticPath
  · rw [if_neg hnull, if_neg hpath, if_pos hsecret]
    exact iff_of_false nofun fun h => h.2.2.1 hsecret
  by_cases hfree : isFreeText engine semanticPath
  · rw [if_neg hnull, if_neg hpath, if_neg hsecret, if_pos hfree]
    exact iff_of_false nofun fun h => h.2.2.2.1 hfree
  rw [if_neg hnull, if_neg hpath, if_neg hsecret, if_neg hfree]
  simp only [ne_eq, hnull, not_lt.mp hpath, hsecret, hfree, not_false_eq_true, true_and]
  cases scalar with
  | string text =>
    simp only [Json.string.injEq, forall_eq', reduceCtorEq, false_implies, implies_true, and_true]
    by_cases hlong : maxExactStringUtf8Bytes < text.utf8ByteSize
    · rw [if_pos hlong]
      exact iff_of_false nofun fun h => absurd h.1 (not_le.mpr hlong)
    · rw [if_neg hlong]
      by_cases hunsafe : hasUnsafeCredentialText engine text
      · rw [if_pos hunsafe]
        exact iff_of_false nofun fun h => h.2 hunsafe
      · rw [if_neg hunsafe]
        exact iff_of_true rfl ⟨not_lt.mp hlong, hunsafe⟩
  | number n =>
    simp only [Json.number.injEq, forall_eq', reduceCtorEq, false_implies, implies_true, true_and]
    cases asI64 n with
    | none => exact iff_of_true rfl nofun
    | some integer =>
      simp only [Option.some.injEq, forall_eq']
      by_cases hrange : -maxJcsSafeInteger ≤ integer ∧ integer ≤ maxJcsSafeInteger
      · exact iff_of_true (if_neg (not_not.mpr hrange)) hrange
      · rw [if_pos hrange]
        exact iff_of_false nofun hrange
  | _ => exact iff_of_true rfl ⟨nofun, nofun⟩

/-! ### Safe attributes -/

/-- The integer a number is. -/
def integerValue : JsonNumber → Option ℤ
  | .posInt n => some n
  | .negInt n => some (-(n + 1))
  | .float _ => none

/-- The signed integers of 64 bits are the integers below `2 ^ 63`. -/
theorem asI64_of_integerValue {n : JsonNumber} {integer : ℤ}
    (h : integerValue n = some integer) :
    asI64 n = some integer ∨ ∃ m, n = .posInt m ∧ 2 ^ 63 ≤ m := by
  cases n with
  | posInt m =>
    by_cases hm : m < 2 ^ 63
    · exact .inl (by rw [asI64, if_pos hm]; exact h)
    · exact .inr ⟨m, rfl, not_lt.mp hm⟩
  | negInt m => exact .inl h
  | float bits => cases h

/-- An attribute that may be kept: it stands where no secret and no free text is, a text
is short and shows no credential, and an integer is one that floats hold exactly. -/
structure SafeAttribute (engine : TextEngine) (root : Json) (a : ExactAttribute) : Prop where
  position : ∃ path, pointerText path = a.path ∧ follow path root = some a.value ∧
    ¬ isSecret engine (semanticText path) ∧ ¬ isFreeText engine (semanticText path)
  text : ∀ text, a.value = .string text → text.utf8ByteSize ≤ 1024 ∧
    ¬ hasUnsafeCredentialText engine text
  integer : ∀ n integer, a.value = .number n → integerValue n = some integer →
    -(2 ^ 53 - 1) ≤ integer ∧ integer ≤ 2 ^ 53 - 1

/-- Among the scanned scalars, and before the attributes are full, there is an integer
above the signed 64 bits whose position no guard refuses. -/
def ReachesUnsignedInteger (engine : TextEngine) (root : Json) : Prop :=
  ∃ before leaf after, eventLeaves root = before ++ leaf :: after ∧
    before.length < maxExactScalarsScanned ∧
    (before.filter fun leaf => Admissible engine leaf).length < maxExactAttributes ∧
    (∃ m, leaf.2 = .number (.posInt m) ∧ 2 ^ 63 ≤ m) ∧
    (pointerText leaf.1).length ≤ maxExactPathChars ∧
    ¬ isSecret engine (semanticText leaf.1) ∧ ¬ isFreeText engine (semanticText leaf.1)

theorem mem_take_filter_take {α : Type} {p : α → Bool} {xs : List α} {n m : ℕ} {x : α} :
    x ∈ ((xs.take n).filter p).take m ↔ ∃ before after, xs = before ++ x :: after ∧ p x = true ∧
      before.length < n ∧ (before.filter p).length < m := by
  induction xs generalizing n m with
  | nil => simp
  | cons y xs ih =>
    cases n with
    | zero => simp
    | succ n =>
      rw [List.take_succ_cons]
      constructor
      · intro h
        by_cases hy : p y = true
        · rw [List.filter_cons_of_pos hy] at h
          cases m with
          | zero => simp at h
          | succ m =>
            rw [List.take_succ_cons] at h
            rcases List.mem_cons.mp h with rfl | h
            · exact ⟨[], xs, rfl, hy, Nat.succ_pos n, Nat.succ_pos m⟩
            · obtain ⟨before, after, rfl, hx, hlength, hcount⟩ := ih.mp h
              refine ⟨y :: before, after, rfl, hx, Nat.succ_lt_succ hlength, ?_⟩
              rw [List.filter_cons_of_pos hy]
              exact Nat.succ_lt_succ hcount
        · rw [List.filter_cons_of_neg hy] at h
          obtain ⟨before, after, rfl, hx, hlength, hcount⟩ := ih.mp h
          refine ⟨y :: before, after, rfl, hx, Nat.succ_lt_succ hlength, ?_⟩
          rwa [List.filter_cons_of_neg hy]
      · rintro ⟨before, after, heq, hx, hlength, hcount⟩
        cases before with
        | nil =>
          obtain ⟨rfl, rfl⟩ := List.cons.inj heq
          rw [List.filter_cons_of_pos hx]
          obtain ⟨m, rfl⟩ := Nat.exists_eq_succ_of_ne_zero (Nat.ne_of_gt hcount)
          exact List.mem_cons_self ..
        | cons z before =>
          obtain ⟨rfl, rfl⟩ := List.cons.inj heq
          have hlength := Nat.lt_of_succ_lt_succ hlength
          by_cases hy : p y = true
          · rw [List.filter_cons_of_pos hy] at hcount ⊢
            obtain ⟨m, rfl⟩ := Nat.exists_eq_succ_of_ne_zero (Nat.ne_zero_of_lt hcount)
            exact List.mem_cons_of_mem _
              (ih.mpr ⟨before, after, rfl, hx, hlength, Nat.lt_of_succ_lt_succ hcount⟩)
          · rw [List.filter_cons_of_neg hy] at hcount ⊢
            exact ih.mpr ⟨before, after, rfl, hx, hlength, hcount⟩

/-- A kept leaf is an admissible one within both limits. -/
theorem mem_keptLeaves_iff {found : List Leaf} {leaf : Leaf} :
    leaf ∈ keptLeaves engine found ↔ ∃ before after, found = before ++ leaf :: after ∧
      Admissible engine leaf ∧ before.length < maxExactScalarsScanned ∧
      (before.filter fun leaf => Admissible engine leaf).length < maxExactAttributes := by
  rw [keptLeaves, mem_take_filter_take]
  simp only [decide_eq_true_eq]

/-- **The attributes are safe exactly when no unsigned integer gets through.** -/
theorem safe_attributes_iff (engine : TextEngine) {root : Json} (h : UniqueKeys root) :
    (∀ a ∈ (exactAttributeSubset engine root).1, SafeAttribute engine root a) ↔
      ¬ ReachesUnsignedInteger engine root := by
  have hmem : ∀ a, a ∈ (exactAttributeSubset engine root).1 ↔
      ∃ leaf ∈ keptLeaves engine (eventLeaves root), attributeOf leaf = a := by
    intro a
    rw [attributes_exactAttributeSubset, Ranking.mem_sortBy, List.mem_map]
  constructor
  · rintro hsafe ⟨before, leaf, after, hsplit, hlength, hcount, ⟨m, hvalue, hlarge⟩, hpath,
      hsecret, hfree⟩
    have hadmissible : Admissible engine leaf := by
      refine omissionReason_eq_none.mpr ⟨?_, hpath, hsecret, hfree, ?_, ?_⟩
      · rw [hvalue]
        nofun
      · rw [hvalue]
        nofun
      · intro n hn integer hinteger
        obtain rfl : .posInt m = n := Json.number.inj (hvalue.symm.trans hn)
        rw [asI64, if_neg (not_lt.mpr hlarge)] at hinteger
        cases hinteger
    have hkept := mem_keptLeaves_iff.mpr ⟨before, after, hsplit, hadmissible, hlength, hcount⟩
    have hrange := (hsafe _ ((hmem _).mpr ⟨leaf, hkept, rfl⟩)).integer (.posInt m) m hvalue rfl
    have hle : (m : ℤ) ≤ 2 ^ 53 - 1 := hrange.2
    omega
  · intro hnot a ha
    obtain ⟨leaf, hkept, rfl⟩ := (hmem a).mp ha
    obtain ⟨before, after, hsplit, hadmissible, hlength, hcount⟩ := mem_keptLeaves_iff.mp hkept
    obtain ⟨-, hpath, hsecret, hfree, htext, hinteger⟩ := omissionReason_eq_none.mp hadmissible
    obtain ⟨-, hfollow⟩ := follow_of_mem_leaves h (mem_keptLeaves hkept).1
    refine ⟨⟨leaf.1, rfl, hfollow, hsecret, hfree⟩, htext, fun n integer hn hvalue => ?_⟩
    rcases asI64_of_integerValue hvalue with hsigned | ⟨m, rfl, hlarge⟩
    · exact hinteger n hn integer hsigned
    · exact absurd ⟨before, leaf, after, hsplit, hlength, hcount, ⟨m, hn, hlarge⟩, hpath, hsecret,
        hfree⟩ hnot

/-! ### An unsigned integer -/

theorem sample_event_safe : (exactAttributeSubset plainEngine sampleEvent).1.Forall
    (SafeAttribute plainEngine sampleEvent) := by
  rw [List.forall_iff_forall_mem]
  refine (safe_attributes_iff plainEngine sampleEvent_uniqueKeys).mpr ?_
  rintro ⟨before, leaf, after, hsplit, -, -, ⟨m, hvalue, hlarge⟩, -⟩
  rw [eventLeaves_sampleEvent] at hsplit
  have hmem : leaf ∈ before ++ leaf :: after := List.mem_append_right _ (List.mem_cons_self ..)
  rw [← hsplit] at hmem
  rcases List.mem_cons.mp hmem with rfl | hmem
  · obtain rfl : 5 = m := JsonNumber.posInt.inj (Json.number.inj hvalue)
    exact absurd hlarge (by decide)
  · rw [List.mem_singleton.mp hmem] at hvalue
    cases hvalue

/-- The number `2 ^ 63` under a harmless name. -/
def unsignedEvent : Json := .object [("size", .number (.posInt (2 ^ 63)))]

/-- It is kept, and no float holds every integer of its size exactly. -/
theorem unsigned_integer_kept :
    UniqueKeys unsignedEvent ∧
      (exactAttributeSubset plainEngine unsignedEvent).1 =
        [⟨"ocsf", "/size", .number (.posInt (2 ^ 63))⟩] ∧
      ¬ ∀ a ∈ (exactAttributeSubset plainEngine unsignedEvent).1,
        SafeAttribute plainEngine unsignedEvent a := by
  have hleaves : eventLeaves unsignedEvent = [([.key "size"], .number (.posInt (2 ^ 63)))] := by
    rw [eventLeaves, unsignedEvent, leaves_object,
      Ranking.sortBy_of_pairwise (List.pairwise_singleton _ _)]
    rfl
  have hkept : (keptLeaves plainEngine (eventLeaves unsignedEvent)).map attributeOf =
      [⟨"ocsf", "/size", .number (.posInt (2 ^ 63))⟩] := by
    rw [hleaves]
    decide
  have hattributes : (exactAttributeSubset plainEngine unsignedEvent).1 =
      [⟨"ocsf", "/size", .number (.posInt (2 ^ 63))⟩] := by
    rw [attributes_exactAttributeSubset, hkept,
      Ranking.sortBy_of_pairwise (List.pairwise_singleton _ _)]
  refine ⟨by simp [unsignedEvent, UniqueKeys, UniqueKeysMembers], hattributes, fun hsafe => ?_⟩
  rw [hattributes] at hsafe
  have hrange := (hsafe _ (List.mem_singleton_self _)).integer (.posInt (2 ^ 63)) (2 ^ 63) rfl rfl
  exact absurd hrange.2 (by decide)

end LivefireRag.Projection
