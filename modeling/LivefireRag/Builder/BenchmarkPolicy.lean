import Mathlib.Data.List.MinMax
import Mathlib.Order.Interval.Finset.Nat
import LivefireRag.Lib.Fields
import LivefireRag.Lib.RoundRobin
import LivefireRag.Builder.Basic
import LivefireRag.Pipeline.BenchmarkSelection

/-!
# Building a benchmark policy

The builder derives the policy of a benchmark from its candidates. The strata are cut
at percentiles of the text lengths, and the greatest length gets a stratum of its own.
The quotas are dealt out to the relations in turn: a relation's turn goes to the cell of
it that holds least, of those with candidates left. Every target goes on from the one
before it, and begins with the first relation again.

`benchmarkLengthStrata_spec` says that the strata pass the checks of a policy, and
`benchmarkSelectionPolicy_spec` that the quotas are those of a filling of the cells row
by row, one for each target, from where the target before it ended.
-/

namespace LivefireRag.Builder

open Fallible Machine Ranking Seen Pipeline

/-! ### Strata -/

/-- The text lengths of the candidates, in ascending order. -/
def sortedLengths (candidates : List BenchmarkSelectionCandidate) : List U64 :=
  sortBy (fun length => length) (candidates.map (·.semanticTextUtf8Bytes))

/-- The position of a percentile, from the last position. -/
def percentileIndex (lastIndex percent : ℕ) : ℕ := lastIndex * percent / 100

/-- The upper bounds of all strata but the last, in ascending order. -/
def upperBounds (lengths : List U64) (maximum : U64) : Result (List U64) := do
  let percentiles ← [50, 90, 95, 99].mapM fun percent =>
    -- the source indexes the lengths
    orThrow lengths[percentileIndex (lengths.length - 1) percent]? .aborted
  let below := percentiles.filter fun upper => upper < maximum
  return (SortedMap.ofList ((below ++ [maximum - 1]).map fun upper => (upper, ()))).keys

/-- One upper bound: the strata so far, and where the next one begins. -/
def pushStratum (state : List BenchmarkLengthStratum × U64) (upper : U64) :
    Result (List BenchmarkLengthStratum × U64) :=
  let (strata, minimum) := state
  if upper < minimum then .ok state
  else do
    let next ← orThrow (toWidth 64 (upper + 1 : ℕ)) .countOverflow
    return (strata ++ [⟨s!"bytes_{(minimum : ℕ)}_to_{(upper : ℕ)}", minimum, some upper⟩], next)

def benchmarkLengthStrata (candidates : List BenchmarkSelectionCandidate) :
    Result (List BenchmarkLengthStratum) := do
  throwIf (candidates.length < 10000)
    (.accountingClosure "benchmark needs at least 10,000 documents")
  let lengths := sortedLengths candidates
  let maximum ← orThrow lengths.getLast? (.accountingClosure "benchmark has no text lengths")
  throwIf (maximum = 0) (.accountingClosure "benchmark semantic text is empty")
  let uppers ← upperBounds lengths maximum
  let (strata, minimum) ← uppers.foldlM pushStratum ([], 0)
  return strata ++ [⟨s!"bytes_{(minimum : ℕ)}_and_up", minimum, none⟩]

/-! ### Quotas -/

section Quotas

variable (dataset : DatasetIdentity) (strata : List BenchmarkLengthStratum)

/-- Where the cell of a candidate stands among the cells. -/
def candidateCell (candidate : BenchmarkSelectionCandidate) : Result ℕ := do
  let stratumIndex ← orThrow (strata.findIdx? (·.contains candidate.semanticTextUtf8Bytes))
    (.accountingClosure "candidate length is outside benchmark strata")
  let relationIndex ← orThrow (dataset.includedRelations.idxOf? candidate.primaryRelation)
    (.accountingClosure "candidate relation is outside benchmark scope")
  -- a position of a list in memory, so the product and the sum fit a word
  return relationIndex * strata.length + stratumIndex

def countCandidate (capacities : List U64) (candidate : BenchmarkSelectionCandidate) :
    Result (List U64) := do
  let cellIndex ← candidateCell dataset strata candidate
  let documents ← orThrow (toWidth 64 (capacities.getD cellIndex 0 + 1 : ℕ)) .countOverflow
  return capacities.set cellIndex documents

end Quotas

/-- The cells' documents so far, their total, and whether the pass has added any. -/
structure Allocation where
  allocated : List U64
  total : U64
  progressed : Bool

section Dealing

variable (capacities : List U64)

/-- Of a relation's cells with candidates left, the first of those that hold least. -/
def chooseCell (allocated : List U64) (first count : ℕ) : Option ℕ :=
  ((List.range' first count).filter fun index =>
    allocated.getD index 0 < capacities.getD index 0).argmin
      fun index => toLex (allocated.getD index 0, index)

/-- The turn of one relation, of a dataset of so many strata. -/
def visitRelation (strataCount : ℕ) (documentCount : U64) (state : Allocation)
    (relationIndex : ℕ) : Result Allocation :=
  -- here the source leaves the loop, and no later relation has a turn
  if state.total = documentCount then .ok state
  else
    match chooseCell capacities state.allocated (relationIndex * strataCount) strataCount with
    | none => .ok state
    | some index => do
      let documents ← orThrow (toWidth 64 (state.allocated.getD index 0 + 1 : ℕ)) .countOverflow
      let total ← orThrow (toWidth 64 (state.total + 1 : ℕ)) .countOverflow
      return ⟨state.allocated.set index documents, total, true⟩

/-- The passes over the relations, until there are as many documents as the target asks
for. A pass adds at least one, so that many passes are enough. -/
def fillTarget (strataCount relationCount : ℕ) (documentCount : U64) :
    ℕ → List U64 × U64 → Result (List U64 × U64)
  | 0, state => if state.2 < documentCount then .error .aborted else .ok state
  | passes + 1, state =>
    if state.2 < documentCount then do
      let pass ← (List.range relationCount).foldlM
        (visitRelation capacities strataCount documentCount) ⟨state.1, state.2, false⟩
      throwIf (¬ pass.progressed) (.accountingClosure "benchmark quota exceeds candidate capacity")
      fillTarget strataCount relationCount documentCount passes (pass.allocated, pass.total)
    else .ok state

/-- The quotas of a target are what the cells hold when it is full. -/
def targetQuota (cells : List Cell) (documentCount : U64) (allocated : List U64) :
    BenchmarkTargetQuota where
  documentCount := documentCount
  quotas := (cells.zip allocated).map fun entry =>
    ⟨(ofLex entry.1).1, (ofLex entry.1).2, entry.2⟩

def pushTarget (dataset : DatasetIdentity) (strata : List BenchmarkLengthStratum)
    (state : List U64 × U64 × List BenchmarkTargetQuota) (documentCount : U64) :
    Result (List U64 × U64 × List BenchmarkTargetQuota) := do
  let (allocated, total) ← fillTarget capacities strata.length dataset.includedRelations.length
    documentCount documentCount (state.1, state.2.1)
  return (allocated, total,
    state.2.2 ++ [targetQuota (expectedCells dataset strata) documentCount allocated])

end Dealing

def zeroDigest : Result Digest :=
  (Digest.new (String.ofList (List.replicate 64 '0'))).mapError .pipeline

def benchmarkSelectionPolicy (dataset : DatasetIdentity) (strata : List BenchmarkLengthStratum)
    (candidates : List BenchmarkSelectionCandidate) (selectionSeed : String) :
    Result BenchmarkSelectionPolicy := do
  let cells := expectedCells dataset strata
  let capacities ← candidates.foldlM (countCandidate dataset strata)
    (List.replicate cells.length 0)
  let capacity ← capacities.foldlM
    (fun total (value : U64) => orThrow (checkedAdd 64 total value) .countOverflow) 0
  throwIf (capacity < 10000) (.accountingClosure "benchmark needs at least 10,000 documents")
  let (_, _, targets) ← standardBenchmarkSizes.foldlM (pushTarget capacities dataset strata)
    (List.replicate cells.length 0, 0, [])
  let componentSha256 ← zeroDigest
  return {
    schemaVersion := "livefire.rag.benchmark-selection-policy/1"
    componentSha256 := componentSha256
    algorithm := "staged_stratified_sha256_v1"
    selectionSeed := selectionSeed
    lengthStrata := strata
    targets := targets }

/-! ### The strata pass -/

/-- The ids of strata that begin at different lengths differ. -/
theorem stratumId_ne {m n : ℕ} (h : m ≠ n) (rest rest' : String) :
    "bytes_" ++ Text.joined '_' (toString m) rest ≠
      "bytes_" ++ Text.joined '_' (toString n) rest' := by
  intro heq
  have hdigits : ∀ k : ℕ, '_' ∉ (toString k).toList := by
    intro k hmem
    have hdigit := Nat.isDigit_of_mem_toDigits (by decide) (by decide)
      ((Nat.toList_repr : (Nat.repr k).toList = _) ▸ hmem)
    exact absurd hdigit (by decide)
  have hchars := congrArg String.toList heq
  rw [String.toList_append, String.toList_append] at hchars
  have hjoined := congrArg (Text.splitOnce '_')
    (String.toList_injective (List.append_cancel_left hchars))
  rw [Text.splitOnce_joined (hdigits m), Text.splitOnce_joined (hdigits n)] at hjoined
  have htext : Nat.repr m = Nat.repr n := congrArg Prod.fst (Option.some.inj hjoined)
  have hvalue := congrArg (fun text => Nat.ofDigitChars 10 text.toList 0) htext
  simp only [Nat.toList_repr, Nat.ofDigitChars_ten_toDigits] at hvalue
  exact h hvalue

theorem stratumId_to (m n : ℕ) :
    s!"bytes_{m}_to_{n}" = "bytes_" ++ Text.joined '_' (toString m) ("to_" ++ toString n) := by
  have htext : ∀ s : String, toString s = s := fun _ => rfl
  refine String.toList_injective ?_
  simp [htext, Text.joined, String.toList_append]

theorem stratumId_up (m : ℕ) :
    s!"bytes_{m}_and_up" = "bytes_" ++ Text.joined '_' (toString m) "and_up" := by
  have htext : ∀ s : String, toString s = s := fun _ => rfl
  refine String.toList_injective ?_
  simp [htext, Text.joined, String.toList_append]

theorem stratumId_ne_empty (m : ℕ) (rest : String) :
    "bytes_" ++ Text.joined '_' (toString m) rest ≠ "" := by
  intro hempty
  have hlength := congrArg String.length hempty
  rw [String.length_append] at hlength
  exact absurd hlength (Nat.ne_of_gt (Nat.lt_add_right _ (by decide)))

/-- Strata up to a length that every check but the one for the last has passed. -/
structure StrataTo (strata : List BenchmarkLengthStratum) (next : U64) : Prop where
  accepted : ∀ count, strata.length < count →
    strata.zipIdx.foldlM (validateLengthStratum count) ([], 0) =
      .ok ((strata.map (·.id)).reverse, (next : ℕ))
  ids : ∀ stratum ∈ strata, ∃ (m : ℕ) (rest : String),
    stratum.id = "bytes_" ++ Text.joined '_' (toString m) rest ∧ m < (next : ℕ)
  below : ∀ stratum ∈ strata, ∃ maximum, stratum.maximumUtf8Bytes = some maximum ∧ maximum < next

theorem strataTo_nil : StrataTo [] 0 := ⟨fun _ _ => rfl, by simp, by simp⟩

section Strata

variable {strata : List BenchmarkLengthStratum} {next : U64}

/-- The id of a stratum that begins at the next length is new. -/
theorem StrataTo.insertNew_id (h : StrataTo strata next) (rest : String) :
    insertNew (strata.map (·.id)).reverse
        ("bytes_" ++ Text.joined '_' (toString (next : ℕ)) rest) =
      some (("bytes_" ++ Text.joined '_' (toString (next : ℕ)) rest) ::
        (strata.map (·.id)).reverse) := by
  refine insertNew_eq_some.mpr ⟨fun hmem => ?_, rfl⟩
  obtain ⟨stratum, hstratum, heq⟩ := List.mem_map.mp (List.mem_reverse.mp hmem)
  obtain ⟨m, rest', hid, hlt⟩ := h.ids stratum hstratum
  exact stratumId_ne (ne_of_lt hlt) _ _ (hid.symm.trans heq)

/-- One more stratum, up to some length. -/
theorem StrataTo.concat (h : StrataTo strata next) {upper after : U64} (hle : next ≤ upper)
    (hsafe : (upper : ℕ) ≤ maxSafeJsonInteger) (hafter : (after : ℕ) = upper + 1) (rest : String) :
    StrataTo (strata ++ [⟨"bytes_" ++ Text.joined '_' (toString (next : ℕ)) rest, next,
      some upper⟩]) after where
  accepted count hcount := by
    rw [List.length_append, List.length_singleton] at hcount
    rw [List.zipIdx_append, List.foldlM_append, h.accepted count (by omega), ok_bind,
      List.zipIdx_singleton, List.foldlM_cons, bind_eq_ok]
    refine ⟨_, ?_, rfl⟩
    simp only [validateLengthStratum, bind_eq_ok, requireText_eq_ok, requireSafeU64_eq_ok,
      orThrow_eq_ok, throwIf_eq_ok, exists_unit, not_or, not_not, not_lt, pure_eq_ok,
      checkedAdd_eq_some]
    refine ⟨?_, (Fin.le_def.mp hle).trans hsafe, _, h.insertNew_id rest, trivial, hsafe,
      ⟨hle, by omega⟩, _, ⟨hafter ▸ after.isLt, rfl⟩, ?_⟩
    · exact stratumId_ne_empty next rest
    · rw [List.map_append, List.reverse_append, hafter]
      rfl
  ids stratum hstratum := by
    have hlt : (next : ℕ) < after := by
      rw [hafter]
      exact Nat.lt_succ_of_le hle
    rcases List.mem_append.mp hstratum with hold | hnew
    · obtain ⟨m, rest', hid, hm⟩ := h.ids stratum hold
      exact ⟨m, rest', hid, hm.trans hlt⟩
    · obtain rfl := List.mem_singleton.mp hnew
      exact ⟨next, rest, rfl, hlt⟩
  below stratum hstratum := by
    have hlt : upper < after := Fin.lt_def.mpr (hafter ▸ Nat.lt_succ_self _)
    rcases List.mem_append.mp hstratum with hold | hnew
    · obtain ⟨maximum, hmaximum, hbefore⟩ := h.below stratum hold
      exact ⟨maximum, hmaximum, hbefore.trans (hle.trans_lt hlt)⟩
    · obtain rfl := List.mem_singleton.mp hnew
      exact ⟨upper, rfl, hlt⟩

/-- With the last stratum, of all greater lengths, the strata pass. -/
theorem StrataTo.validate_concat (h : StrataTo strata next)
    (hsafe : (next : ℕ) ≤ maxSafeJsonInteger) (rest : String) :
    validateLengthStrata (strata ++ [⟨"bytes_" ++ Text.joined '_' (toString (next : ℕ)) rest, next,
      none⟩]) = .ok () := by
  have hlength : (strata ++ [(⟨"bytes_" ++ Text.joined '_' (toString (next : ℕ)) rest, next,
      none⟩ : BenchmarkLengthStratum)]).length = strata.length + 1 := by
    rw [List.length_append, List.length_singleton]
  have hlast : validateLengthStratum (strata.length + 1) ((strata.map (·.id)).reverse, (next : ℕ))
      (⟨"bytes_" ++ Text.joined '_' (toString (next : ℕ)) rest, next, none⟩, 0 + strata.length) =
      .ok (("bytes_" ++ Text.joined '_' (toString (next : ℕ)) rest) ::
        (strata.map (·.id)).reverse, (next : ℕ)) := by
    simp only [validateLengthStratum, bind_eq_ok, requireText_eq_ok, requireSafeU64_eq_ok,
      orThrow_eq_ok, throwIf_eq_ok, exists_unit, not_not, pure_eq_ok]
    refine ⟨?_, hsafe, _, h.insertNew_id rest, trivial, ?_, rfl⟩
    · exact stratumId_ne_empty next rest
    · rw [Nat.zero_add]
  rw [validateLengthStrata, throwIf_bind_of_not (List.append_ne_nil_of_right_ne_nil _
    (List.cons_ne_nil _ _)), List.zipIdx_append, List.foldlM_append, hlength,
    h.accepted _ (Nat.lt_succ_self _), ok_bind, List.zipIdx_singleton, List.foldlM_cons, hlast]
  rfl

end Strata

theorem percentileIndex_le {lastIndex percent : ℕ} (h : percent ≤ 100) :
    percentileIndex lastIndex percent ≤ lastIndex :=
  Nat.div_le_of_le_mul (by
    rw [Nat.mul_comm 100]
    exact Nat.mul_le_mul_left lastIndex h)

theorem getLast?_of_pairwise_lt {xs : List U64} {m : U64} (h : xs.Pairwise (· < ·)) (hm : m ∈ xs)
    (hle : ∀ x ∈ xs, x ≤ m) : xs.getLast? = some m := by
  induction xs using List.reverseRecOn with
  | nil => exact absurd hm List.not_mem_nil
  | append_singleton xs x _ =>
    rw [List.getLast?_concat]
    rcases List.mem_append.mp hm with hm | hm
    · have hlt := (List.pairwise_append.mp h).2.2 m hm x (List.mem_singleton_self x)
      exact absurd (hle x List.mem_concat_self) (not_le.mpr hlt)
    · rw [List.mem_singleton.mp hm]

/-- The upper bounds ascend to the last length before the greatest. -/
theorem upperBounds_spec {lengths : List U64} {maximum : U64} (hne : lengths ≠ [])
    (hpos : maximum ≠ 0) : ∃ uppers, upperBounds lengths maximum = .ok uppers ∧
      uppers.Pairwise (· < ·) ∧ uppers.length ≤ 5 ∧ (∀ upper ∈ uppers, upper < maximum) ∧
      uppers.getLast? = some (maximum - 1) := by
  have hlength := List.length_pos_iff.mpr hne
  have hall : ∀ percent ∈ [50, 90, 95, 99], ∃ length,
      orThrow lengths[percentileIndex (lengths.length - 1) percent]? Error.aborted = .ok length ∧
        True := by
    intro percent hpercent
    have hle : percentileIndex (lengths.length - 1) percent ≤ lengths.length - 1 := by
      refine percentileIndex_le ?_
      revert percent
      decide
    have hlt : percentileIndex (lengths.length - 1) percent < lengths.length := by omega
    exact ⟨lengths[percentileIndex (lengths.length - 1) percent],
      orThrow_eq_ok.mpr (List.getElem?_eq_getElem hlt), trivial⟩
  obtain ⟨percentiles, hpercentiles, hrel⟩ := mapM_total hall
  have hfour : percentiles.length = 4 := hrel.length_eq.symm
  have hmem : ∀ upper, upper ∈ (SortedMap.ofList (((percentiles.filter fun upper =>
      upper < maximum) ++ [maximum - 1]).map fun upper => (upper, ()))).keys ↔
      (upper ∈ percentiles ∧ upper < maximum) ∨ upper = maximum - 1 := by
    intro upper
    rw [SortedMap.mem_keys_ofList, List.map_map]
    simp
  have hsorted := List.pairwise_map.mpr (SortedMap.ofList (((percentiles.filter fun upper =>
      upper < maximum) ++ [maximum - 1]).map fun upper => (upper, ()))).sorted
  have hval : ((maximum - 1 : U64) : ℕ) = maximum - 1 := Fin.val_sub_one_of_ne_zero hpos
  have hpositive : 0 < (maximum : ℕ) := Fin.lt_def.mp (Fin.pos_iff_ne_zero.mpr hpos)
  have hlt : ∀ upper ∈ (SortedMap.ofList (((percentiles.filter fun upper =>
      upper < maximum) ++ [maximum - 1]).map fun upper => (upper, ()))).keys, upper < maximum := by
    intro upper hupper
    rcases (hmem upper).mp hupper with ⟨-, hlt⟩ | rfl
    · exact hlt
    · rw [Fin.lt_def, hval]
      exact Nat.sub_one_lt_of_lt hpositive
  refine ⟨_, ?_, hsorted, ?_, hlt, ?_⟩
  · rw [upperBounds, hpercentiles]
    rfl
  · have hsize := SortedMap.size_ofList_le (((percentiles.filter fun upper =>
      upper < maximum) ++ [maximum - 1]).map fun upper => (upper, ()))
    rw [List.length_map, List.length_append, List.length_singleton] at hsize
    have hfilter := List.length_filter_le (fun upper => decide (upper < maximum)) percentiles
    refine (List.length_map _).le.trans ?_
    exact hsize.trans (Nat.succ_le_succ (hfilter.trans hfour.le))
  · refine getLast?_of_pairwise_lt hsorted ((hmem _).mpr (.inr rfl)) fun upper hupper => ?_
    rw [Fin.le_def, hval]
    exact Nat.le_sub_one_of_lt (hlt upper hupper)

/-- Ascending bounds make strata up to the last one of them. -/
theorem foldlM_pushStratum {uppers : List U64} (hsorted : uppers.Pairwise (· < ·))
    (hsafe : ∀ upper ∈ uppers, (upper : ℕ) ≤ maxSafeJsonInteger) :
    ∃ strata next, uppers.foldlM pushStratum ([], 0) = .ok (strata, next) ∧
      StrataTo strata next ∧ strata.length = uppers.length ∧
      ∀ upper ∈ uppers.getLast?, (next : ℕ) = upper + 1 := by
  have htotal := @foldlM_total _ _ _ pushStratum
    (fun pre state => StrataTo state.1 state.2 ∧ state.1.length = pre.length ∧
      (pre = [] → state.2 = 0) ∧ ∀ upper ∈ pre.getLast?, (state.2 : ℕ) = upper + 1) uppers ([], 0)
    ⟨strataTo_nil, rfl, fun _ => rfl, by simp⟩ ?_
  · obtain ⟨⟨strata, next⟩, hrun, hstrata, hlength, -, hlast⟩ := htotal
    exact ⟨strata, next, hrun, hstrata, hlength, hlast⟩
  · rintro pre upper post ⟨strata, next⟩ hsplit ⟨hstrata, hlength, hfirst, hlast⟩
    -- the next stratum begins behind the bound before, so no bound is passed over
    have hle : next ≤ upper := by
      cases hpre : pre.getLast? with
      | none =>
        have hzero : next = 0 := hfirst (List.getLast?_eq_none_iff.mp hpre)
        exact hzero ▸ Fin.zero_le upper
      | some bound =>
        rw [hsplit] at hsorted
        have hlt := (List.pairwise_append.mp hsorted).2.2 bound (List.mem_of_getLast? hpre) upper
          List.mem_cons_self
        have hnext : (next : ℕ) = bound + 1 := hlast bound hpre
        exact Fin.le_def.mpr (hnext.le.trans hlt)
    have hupper := hsafe upper (hsplit ▸ List.mem_append_right _ List.mem_cons_self)
    have hfits : (upper : ℕ) + 1 < 2 ^ 64 := by
      have hmax : maxSafeJsonInteger + 1 < 2 ^ 64 := by decide
      omega
    refine ⟨(strata ++ [⟨s!"bytes_{(next : ℕ)}_to_{(upper : ℕ)}", next, some upper⟩],
      ⟨upper + 1, hfits⟩), ?_, ?_, ?_, fun hnil => ?_, fun bound hbound => ?_⟩
    · have hnext : toWidth 64 (upper + 1 : ℕ) = some ⟨upper + 1, hfits⟩ := toWidth_eq_some.mpr rfl
      rw [pushStratum, if_neg (not_lt.mpr hle), hnext]
      rfl
    · rw [stratumId_to]
      exact hstrata.concat hle hupper rfl _
    · rw [List.length_append, List.length_append, hlength]
      rfl
    · exact absurd hnil (List.append_ne_nil_of_right_ne_nil _ (List.cons_ne_nil _ _))
    · rw [List.getLast?_concat, Option.mem_some_iff] at hbound
      rw [← hbound]

theorem mem_sortedLengths {candidates : List BenchmarkSelectionCandidate} {length : U64} :
    length ∈ sortedLengths candidates ↔
      ∃ candidate ∈ candidates, candidate.semanticTextUtf8Bytes = length := by
  rw [sortedLengths, mem_sortBy, List.mem_map]

/-- **The strata** pass the checks of a policy. There are at most six, and the last one
begins at the greatest length, which lies in no other. -/
theorem benchmarkLengthStrata_spec {candidates : List BenchmarkSelectionCandidate}
    (hmany : 10000 ≤ candidates.length)
    (hlengths : ∀ candidate ∈ candidates, candidate.semanticTextUtf8Bytes ≠ 0 ∧
      (candidate.semanticTextUtf8Bytes : ℕ) ≤ maxSafeJsonInteger) :
    ∃ strata last, benchmarkLengthStrata candidates = .ok (strata ++ [last]) ∧
      validateLengthStrata (strata ++ [last]) = .ok () ∧ strata.length ≤ 5 ∧
      (∀ stratum ∈ strata, stratum.contains last.minimumUtf8Bytes = false) ∧
      (∃ candidate ∈ candidates, candidate.semanticTextUtf8Bytes = last.minimumUtf8Bytes) ∧
      ∀ candidate ∈ candidates, candidate.semanticTextUtf8Bytes ≤ last.minimumUtf8Bytes := by
  have hne : sortedLengths candidates ≠ [] := by
    intro hnil
    have hlength := congrArg List.length hnil
    rw [sortedLengths, length_sortBy, List.length_map, List.length_nil] at hlength
    omega
  obtain ⟨maximum, hmaximum⟩ : ∃ maximum, (sortedLengths candidates).getLast? = some maximum :=
    ⟨_, List.getLast?_eq_some_getLast hne⟩
  obtain ⟨candidate, hcandidate, hcandidateMax⟩ :=
    mem_sortedLengths.mp (List.mem_of_getLast? hmaximum)
  have hpos : maximum ≠ 0 := hcandidateMax ▸ (hlengths candidate hcandidate).1
  have hmaxSafe : (maximum : ℕ) ≤ maxSafeJsonInteger :=
    hcandidateMax ▸ (hlengths candidate hcandidate).2
  obtain ⟨uppers, huppers, hsorted, hfive, hbelow, hlast⟩ := upperBounds_spec hne hpos
  have hval : ((maximum - 1 : U64) : ℕ) = maximum - 1 := Fin.val_sub_one_of_ne_zero hpos
  obtain ⟨strata, next, hrun, hstrata, hlength, hnext⟩ := foldlM_pushStratum hsorted
    fun upper hupper => (Fin.lt_def.mp (hbelow upper hupper)).le.trans hmaxSafe
  have hnextMax : next = maximum := by
    have hpositive := Fin.pos_iff_ne_zero.mpr hpos
    refine Fin.ext ?_
    rw [hnext _ hlast, hval]
    exact Nat.sub_add_cancel hpositive
  subst hnextMax
  refine ⟨strata, ⟨s!"bytes_{(next : ℕ)}_and_up", next, none⟩, ?_, ?_, hlength.le.trans hfive,
    fun stratum hstratum => ?_, ⟨candidate, hcandidate, hcandidateMax⟩, fun other hother => ?_⟩
  · rw [benchmarkLengthStrata, throwIf_bind_of_not (not_lt.mpr hmany)]
    show orThrow (sortedLengths candidates).getLast? _ >>= _ = _
    rw [hmaximum]
    show throwIf (next = 0) _ >>= _ = _
    rw [throwIf_bind_of_not hpos, huppers, ok_bind, hrun]
    rfl
  · rw [stratumId_up]
    exact hstrata.validate_concat hmaxSafe _
  · obtain ⟨maximum, hmaximum, hlt⟩ := hstrata.below stratum hstratum
    refine decide_eq_false fun hcontains => ?_
    exact absurd (hcontains.2 maximum hmaximum) (not_le.mpr hlt)
  · -- the lengths are sorted, so none passes the last
    obtain ⟨others, hsplit⟩ := List.getLast?_eq_some_iff.mp hmaximum
    have hpairwise : (sortedLengths candidates).Pairwise (· ≤ ·) := sortBy_pairwise _ _
    have hmem := mem_sortedLengths.mpr ⟨other, hother, rfl⟩
    rw [hsplit] at hpairwise hmem
    rcases List.mem_append.mp hmem with hmem | hmem
    · exact (List.pairwise_append.mp hpairwise).2.2 _ hmem _ (List.mem_singleton_self _)
    · exact (List.mem_singleton.mp hmem).le

/-! ### Dealing out the quotas -/

/-- The numbers of a list, by position. -/
def counts (values : List U64) (index : ℕ) : ℕ := values.getD index 0

/-- The positions of the cells of a relation. -/
def relationCells (strataCount relationIndex : ℕ) : Finset ℕ :=
  Finset.Ico (relationIndex * strataCount) (relationIndex * strataCount + strataCount)

theorem counts_set {values : List U64} {index : ℕ} (h : index < values.length) (value : U64) :
    counts (values.set index value) = Function.update (counts values) index value := by
  funext other
  rcases eq_or_ne other index with rfl | hne
  · rw [Function.update_self, counts, List.getD_eq_getElem?_getD, List.getElem?_set_self h]
    rfl
  · rw [Function.update_of_ne hne, counts, counts, List.getD_eq_getElem?_getD,
      List.getElem?_set_ne hne.symm, List.getD_eq_getElem?_getD]

theorem counts_of_le {values : List U64} {index : ℕ} (h : values.length ≤ index) :
    counts values index = 0 := by
  rw [counts, List.getD_eq_getElem?_getD, List.getElem?_eq_none h]
  rfl

theorem sum_counts (values : List U64) :
    ∑ index ∈ Finset.range values.length, counts values index =
      (values.map fun value : U64 => (value : ℕ)).sum := by
  induction values with
  | nil => rfl
  | cons value values ih =>
    rw [List.length_cons, Finset.sum_range_succ', List.map_cons, List.sum_cons, ← ih, Nat.add_comm]
    rfl

theorem disjoint_relationCells (strataCount : ℕ) :
    Pairwise fun r other => Disjoint (relationCells strataCount r) (relationCells strataCount other) := by
  intro r other hne
  rw [Finset.disjoint_left]
  intro index hr hother
  rw [relationCells, Finset.mem_Ico] at hr hother
  rcases Nat.lt_or_gt_of_ne hne with hlt | hlt
  · have hle := Nat.mul_le_mul_right strataCount (Nat.succ_le_of_lt hlt)
    rw [Nat.succ_mul] at hle
    omega
  · have hle := Nat.mul_le_mul_right strataCount (Nat.succ_le_of_lt hlt)
    rw [Nat.succ_mul] at hle
    omega

theorem relationCells_subset {strataCount relationCount r : ℕ} (h : r < relationCount) :
    relationCells strataCount r ⊆ Finset.range (relationCount * strataCount) := by
  intro index hindex
  rw [relationCells, Finset.mem_Ico] at hindex
  have hle := Nat.mul_le_mul_right strataCount (Nat.succ_le_of_lt h)
  rw [Nat.succ_mul] at hle
  rw [Finset.mem_range]
  omega

/-- Every cell is one of some relation. -/
theorem exists_relationCells {strataCount relationCount index : ℕ}
    (h : index < relationCount * strataCount) :
    ∃ r < relationCount, index ∈ relationCells strataCount r := by
  have hpos : 0 < strataCount := by
    rcases Nat.eq_zero_or_pos strataCount with rfl | hpos
    · exact absurd h (Nat.not_lt_zero _)
    · exact hpos
  refine ⟨index / strataCount, (Nat.div_lt_iff_lt_mul hpos).mpr h, ?_⟩
  rw [relationCells, Finset.mem_Ico]
  have hsplit := Nat.div_add_mod' index strataCount
  have hmod := Nat.mod_lt index hpos
  omega

section Dealing

variable {capacities allocated : List U64} {strataCount relationCount : ℕ} {documentCount total : U64}

/-- What the cells hold, and the total. -/
def fillState (allocated : List U64) (total : U64) : RoundRobin.State ℕ := ⟨counts allocated, total⟩

/-- The cell of a relation's turn is the one a filling row by row serves. -/
theorem chooseCell_eq_some {r index : ℕ}
    (h : chooseCell capacities allocated (r * strataCount) strataCount = some index) :
    RoundRobin.Serves (counts capacities) (fillState allocated total) (relationCells strataCount r)
      index := by
  have hmem := List.mem_filter.mp (List.argmin_mem h)
  have hcells : ∀ cell, cell ∈ relationCells strataCount r ↔
      cell ∈ List.range' (r * strataCount) strataCount := by
    intro cell
    rw [relationCells, Finset.mem_Ico, List.mem_range'_1]
  refine ⟨(hcells index).mpr hmem.1, Fin.lt_def.mp (of_decide_eq_true hmem.2),
    fun cell hcell hlt => ?_⟩
  have hle := List.le_of_mem_argmin (List.mem_filter.mpr ⟨(hcells cell).mp hcell,
    decide_eq_true (Fin.lt_def.mpr hlt)⟩) h
  rw [Prod.Lex.toLex_le_toLex] at hle ⊢
  exact hle.imp Fin.lt_def.mp (And.imp_left (congrArg Fin.val))

theorem chooseCell_eq_none {r : ℕ}
    (h : chooseCell capacities allocated (r * strataCount) strataCount = none) :
    ∀ cell ∈ relationCells strataCount r, counts capacities cell ≤ counts allocated cell := by
  intro cell hcell
  rw [relationCells, Finset.mem_Ico, ← List.mem_range'_1] at hcell
  have hnone := List.filter_eq_nil_iff.mp (List.argmin_eq_none.mp h) cell hcell
  rw [decide_eq_true_eq, not_lt] at hnone
  exact Fin.le_def.mp hnone

/-- A relation's turn is a visit of its cells. -/
theorem visitRelation_spec {state : Allocation} {r : ℕ} (hr : r < relationCount)
    (hlength : state.allocated.length = relationCount * strataCount)
    (hle : state.total ≤ documentCount) :
    ∃ after, visitRelation capacities strataCount documentCount state r = .ok after ∧
      RoundRobin.Visit (counts capacities) (relationCells strataCount) documentCount r
        (fillState state.allocated state.total) (fillState after.allocated after.total) ∧
      after.allocated.length = relationCount * strataCount ∧
      after.progressed = (state.progressed || decide (state.total < after.total)) := by
  by_cases hdone : state.total = documentCount
  · refine ⟨state, by rw [visitRelation, if_pos hdone], .atGoal (congrArg Fin.val hdone), hlength, ?_⟩
    rw [decide_eq_false (lt_irrefl _), Bool.or_false]
  have hdoneVal : (fillState state.allocated state.total).total ≠ documentCount :=
    fun heq => hdone (Fin.ext heq)
  rw [visitRelation, if_neg hdone]
  cases hchoose : chooseCell capacities state.allocated (r * strataCount) strataCount with
  | none =>
    refine ⟨state, rfl, .full hdoneVal (chooseCell_eq_none hchoose), hlength, ?_⟩
    rw [decide_eq_false (lt_irrefl _), Bool.or_false]
  | some index =>
    have hserves : RoundRobin.Serves (counts capacities) (fillState state.allocated state.total)
      (relationCells strataCount r) index := chooseCell_eq_some hchoose
    -- what a cell holds is less than its capacity, and the total less than the target
    have hdocuments : counts state.allocated index + 1 < 2 ^ 64 :=
      (Nat.succ_le_of_lt hserves.lt).trans_lt (capacities.getD index 0).isLt
    have htotal : (state.total : ℕ) + 1 < 2 ^ 64 :=
      (Nat.succ_le_of_lt (lt_of_le_of_ne (Fin.le_def.mp hle) hdoneVal)).trans_lt documentCount.isLt
    have hindex : index < state.allocated.length := by
      rw [hlength]
      exact Finset.mem_range.mp (relationCells_subset hr hserves.mem)
    have hwidth : toWidth 64 (state.allocated.getD index 0 + 1 : ℕ) = some ⟨_, hdocuments⟩ :=
      toWidth_eq_some.mpr rfl
    have hwidth' : toWidth 64 (state.total + 1 : ℕ) = some ⟨_, htotal⟩ := toWidth_eq_some.mpr rfl
    refine ⟨⟨state.allocated.set index ⟨_, hdocuments⟩, ⟨_, htotal⟩, true⟩, ?_, ?_, ?_, ?_⟩
    · show orThrow (toWidth 64 (state.allocated.getD index 0 + 1 : ℕ)) _ >>= _ = _
      rw [hwidth, hwidth']
      rfl
    · have hgive : fillState (state.allocated.set index ⟨_, hdocuments⟩) ⟨_, htotal⟩ =
          (fillState state.allocated state.total).give index := by
        rw [fillState, counts_set hindex]
        rfl
      rw [hgive]
      exact .give hdoneVal hserves
    · rw [List.length_set, hlength]
    · rw [decide_eq_true (Fin.lt_def.mpr (Nat.lt_succ_self _)), Bool.or_true]

/-- A pass over the relations is a sweep. -/
theorem foldlM_visitRelation (hlength : allocated.length = relationCount * strataCount)
    (hle : total ≤ documentCount) :
    ∃ after, (List.range relationCount).foldlM (visitRelation capacities strataCount documentCount)
        ⟨allocated, total, false⟩ = .ok after ∧
      RoundRobin.Sweep (counts capacities) (relationCells strataCount) documentCount
        (List.range relationCount) (fillState allocated total)
        (fillState after.allocated after.total) ∧
      after.allocated.length = relationCount * strataCount ∧
      (after.progressed = true ↔ total < after.total) := by
  refine @foldlM_total _ _ _ (visitRelation capacities strataCount documentCount)
    (fun pre (state : Allocation) =>
      RoundRobin.Sweep (counts capacities) (relationCells strataCount) documentCount pre
        (fillState allocated total) (fillState state.allocated state.total) ∧
      state.allocated.length = relationCount * strataCount ∧
      (state.progressed = true ↔ total < state.total)) (List.range relationCount)
    ⟨allocated, total, false⟩ ⟨.nil, hlength, by simp⟩ ?_
  · rintro pre r post state hsplit ⟨hsweep, hlength, hprogressed⟩
    have hr : r < relationCount :=
      List.mem_range.mp (hsplit ▸ List.mem_append_right _ List.mem_cons_self)
    obtain ⟨after, hafter, hvisit, hlength', hmore⟩ := visitRelation_spec hr hlength
      (hsweep.le_goal hle)
    refine ⟨after, hafter, hsweep.concat hvisit, hlength', ?_⟩
    have hbefore : total ≤ state.total := hsweep.total_le
    have hgrows : state.total ≤ after.total := hvisit.total_le
    rw [hmore, Bool.or_eq_true, hprogressed, decide_eq_true_eq]
    constructor
    · rintro (hlt | hlt)
      · exact hlt.trans_le hgrows
      · exact hbefore.trans_lt hlt
    · intro hlt
      rcases hgrows.lt_or_eq with hlt' | heq
      · exact .inr hlt'
      · exact .inl (heq ▸ hlt)

/-- **Filling a target.** When the cells have room for that many documents, the passes
fill the cells row by row to the target. -/
theorem fillTarget_spec {passes : ℕ} (hlength : allocated.length = relationCount * strataCount)
    (hsound : RoundRobin.Sound (counts capacities) (Finset.range (relationCount * strataCount))
      (fillState allocated total))
    (hle : total ≤ documentCount) (hpasses : (documentCount : ℕ) - total ≤ passes)
    (hroom : (documentCount : ℕ) ≤
      ∑ cell ∈ Finset.range (relationCount * strataCount), counts capacities cell) :
    ∃ allocated' total', fillTarget capacities strataCount relationCount documentCount passes
        (allocated, total) = .ok (allocated', total') ∧
      RoundRobin.Fill (counts capacities) (relationCells strataCount) documentCount
        (List.range relationCount) (fillState allocated total) (fillState allocated' total') ∧
      allocated'.length = relationCount * strataCount := by
  induction passes generalizing allocated total with
  | zero =>
    have hdone : total = documentCount := le_antisymm hle (by
      rw [Fin.le_def]
      omega)
    refine ⟨allocated, total, ?_, .done (congrArg Fin.val hdone), hlength⟩
    rw [fillTarget, if_neg (not_lt.mpr hdone.ge)]
  | succ passes ih =>
    rw [fillTarget]
    by_cases hlt : total < documentCount
    · rw [if_pos hlt]
      obtain ⟨pass, hpass, hsweep, hlength', hprogressed⟩ := @foldlM_visitRelation capacities _ _ _ _ _
        hlength hle
      have hrows : ∀ r ∈ List.range relationCount, ∀ t t',
          RoundRobin.Visit (counts capacities) (relationCells strataCount) documentCount r t t' →
          RoundRobin.Sound (counts capacities) (Finset.range (relationCount * strataCount)) t →
          RoundRobin.Sound (counts capacities) (Finset.range (relationCount * strataCount)) t' :=
        fun r hr _ _ hvisit => hvisit.sound (relationCells_subset (List.mem_range.mp hr))
      have hmore : total < pass.total := by
        -- a pass that adds nothing has found all cells full, but there is room for the target
        by_contra hstuck
        have hsame : (fillState pass.allocated pass.total).total = (fillState allocated total).total :=
          le_antisymm (Fin.le_def.mp (not_lt.mp hstuck)) hsweep.total_le
        have hfull := hsweep.full (Fin.lt_def.mp hlt).ne hsame
        have hcaps : ∑ cell ∈ Finset.range (relationCount * strataCount), counts capacities cell ≤
            ∑ cell ∈ Finset.range (relationCount * strataCount), counts allocated cell := by
          refine Finset.sum_le_sum fun cell hcell => ?_
          obtain ⟨r, hr, hmem⟩ := exists_relationCells (Finset.mem_range.mp hcell)
          exact hfull r (List.mem_range.mpr hr) cell hmem
        have htotal : ∑ cell ∈ Finset.range (relationCount * strataCount), counts allocated cell =
          total := hsound.total
        have hlt' := Fin.lt_def.mp hlt
        omega
      have hmoreVal := Fin.lt_def.mp hmore
      obtain ⟨allocated', total', hrun, hfill, hlength''⟩ := ih hlength'
        (hsweep.preserves hrows hsound) (hsweep.le_goal hle) (by omega)
      refine ⟨allocated', total', ?_, .sweep hlt hsweep hmore hfill, hlength''⟩
      rw [hpass, ok_bind, throwIf_bind_of_not (not_not.mpr (hprogressed.mpr hmore)), hrun]
    · rw [if_neg hlt]
      exact ⟨allocated, total, rfl, .done (congrArg Fin.val (le_antisymm hle (not_lt.mp hlt))),
        hlength⟩

end Dealing

/-! ### Counting the candidates -/

/-- A position among pieces of one length is that of a piece and one within it. -/
theorem getElem?_flatMap_of_length {α β : Type} {f : α → List β} {xs : List α} {n : ℕ}
    (hlength : ∀ x ∈ xs, (f x).length = n) {r s : ℕ} {x : α} (hx : xs[r]? = some x) (hs : s < n) :
    (xs.flatMap f)[r * n + s]? = (f x)[s]? := by
  induction xs generalizing r with
  | nil => exact absurd hx (by simp)
  | cons y xs ih =>
    obtain ⟨hy, hxs⟩ := List.forall_mem_cons.mp hlength
    rw [List.flatMap_cons]
    cases r with
    | zero =>
      rw [List.getElem?_cons_zero, Option.some.injEq] at hx
      rw [Nat.zero_mul, Nat.zero_add, List.getElem?_append_left (hy ▸ hs), hx]
    | succ r =>
      rw [List.getElem?_cons_succ] at hx
      have hindex : (r + 1) * n + s - (f y).length = r * n + s := by
        rw [hy, Nat.succ_mul]
        omega
      rw [List.getElem?_append_right (by rw [hy, Nat.succ_mul]; omega), hindex, ih hxs hx]

section Counting

variable {dataset : DatasetIdentity} {strata : List BenchmarkLengthStratum}
  {candidates : List BenchmarkSelectionCandidate}

theorem length_expectedCells (dataset : DatasetIdentity) (strata : List BenchmarkLengthStratum) :
    (expectedCells dataset strata).length = dataset.includedRelations.length * strata.length := by
  rw [expectedCells, List.length_flatMap]
  simp only [List.length_map, List.map_const', List.sum_replicate, Nat.nsmul_eq_mul]

/-- The cell of a candidate, and where it stands. -/
structure InCell (dataset : DatasetIdentity) (strata : List BenchmarkLengthStratum)
    (candidate : BenchmarkSelectionCandidate) (stratum : BenchmarkLengthStratum) (index : ℕ) :
    Prop where
  find : strata.find? (·.contains candidate.semanticTextUtf8Bytes) = some stratum
  cell : candidateCell dataset strata candidate = .ok index
  lt : index < dataset.includedRelations.length * strata.length
  get : (expectedCells dataset strata)[index]? =
    some (toLex (candidate.primaryRelation, stratum.id))

theorem exists_inCell (hstrata : StrataAccepted strata) {candidate : BenchmarkSelectionCandidate}
    (hrelation : candidate.primaryRelation ∈ dataset.includedRelations) :
    ∃ stratum index, InCell dataset strata candidate stratum index := by
  obtain ⟨covering, hmem, hin⟩ := hstrata.covers candidate.semanticTextUtf8Bytes
  obtain ⟨stratum, hfind⟩ : ∃ stratum,
      strata.find? (·.contains candidate.semanticTextUtf8Bytes) = some stratum :=
    Option.isSome_iff_exists.mp (List.find?_isSome.mpr ⟨covering, hmem, hin⟩)
  obtain ⟨s, hs⟩ : ∃ s, strata.findIdx? (·.contains candidate.semanticTextUtf8Bytes) = some s :=
    Option.isSome_iff_exists.mp (by
      rw [List.findIdx?_isSome]
      exact List.any_eq_true.mpr ⟨covering, hmem, hin⟩)
  obtain ⟨r, hr⟩ : ∃ r, dataset.includedRelations.idxOf? candidate.primaryRelation = some r :=
    Option.isSome_iff_exists.mp (List.isSome_idxOf?.mpr hrelation)
  have hget : strata[s]? = some stratum := by
    rw [← hfind, List.find?_eq_bind_findIdx?_getElem?, hs]
    rfl
  obtain ⟨hrlt, hrget, -⟩ := List.idxOf?_eq_some_iff.mp hr
  have hslt : s < strata.length := (List.getElem?_eq_some_iff.mp hget).1
  refine ⟨stratum, r * strata.length + s, hfind, ?_, ?_, ?_⟩
  · rw [candidateCell, hs, hr]
    rfl
  · have hle := Nat.mul_le_mul_right strata.length (Nat.succ_le_of_lt hrlt)
    rw [Nat.succ_mul] at hle
    omega
  · rw [expectedCells, getElem?_flatMap_of_length (fun _ _ => List.length_map _)
      (List.getElem?_eq_some_iff.mpr ⟨hrlt, hrget⟩) hslt, List.getElem?_map, hget]
    rfl

/-- Among cells that are all different, a cell's candidates are those that stand at its
position. -/
theorem length_cellRows (prims : Primitives) {projectionPolicy : ComponentRef}
    {policy : BenchmarkSelectionPolicy}
    (hnodup : (expectedCells dataset policy.lengthStrata).Nodup)
    (hcells : ∀ candidate ∈ candidates, ∃ stratum index,
      InCell dataset policy.lengthStrata candidate stratum index)
    {cell : Cell} {index : ℕ} (hcell : (expectedCells dataset policy.lengthStrata)[index]? = some cell) :
    (cellRows prims dataset projectionPolicy policy candidates cell).length =
      candidates.countP fun candidate =>
        candidateCell dataset policy.lengthStrata candidate = .ok index := by
  rw [cellRows, length_sortBy, ← List.countP_eq_length_filter, selectionRows,
    List.countP_filterMap]
  refine List.countP_congr fun candidate hcandidate => ?_
  obtain ⟨stratum, position, hin⟩ := hcells candidate hcandidate
  rw [hin.find, hin.cell]
  simp only [Option.map_some, Option.getD_some, decide_eq_true_eq, Except.ok.injEq]
  constructor
  · rintro rfl
    exact (List.getElem?_inj (hin.lt.trans_eq (length_expectedCells _ _).symm) hnodup).mp
      (hin.get.trans hcell.symm)
  · rintro rfl
    exact Option.some.inj (hin.get.symm.trans hcell)

/-- Every candidate counts for its cell. -/
theorem foldlM_countCandidate (hfits : candidates.length < 2 ^ 64)
    (hcells : ∀ candidate ∈ candidates, ∃ stratum index,
      InCell dataset strata candidate stratum index) :
    ∃ capacities, candidates.foldlM (countCandidate dataset strata)
        (List.replicate (expectedCells dataset strata).length 0) = .ok capacities ∧
      capacities.length = dataset.includedRelations.length * strata.length ∧
      (∑ index ∈ Finset.range (dataset.includedRelations.length * strata.length),
        counts capacities index = candidates.length) ∧
      ∀ index, counts capacities index =
        candidates.countP fun candidate => candidateCell dataset strata candidate = .ok index := by
  have hzero : ∀ n index, counts (List.replicate n 0) index = 0 := by
    intro n index
    rw [counts, List.getD_eq_getElem?_getD, List.getElem?_replicate]
    split <;> rfl
  refine foldlM_total (P := fun pre (capacities : List U64) =>
    capacities.length = dataset.includedRelations.length * strata.length ∧
      (∑ index ∈ Finset.range (dataset.includedRelations.length * strata.length),
        counts capacities index = pre.length) ∧
      ∀ index, counts capacities index =
        pre.countP fun candidate => candidateCell dataset strata candidate = .ok index) ?_ ?_
  · refine ⟨?_, ?_, fun index => ?_⟩
    · rw [List.length_replicate, length_expectedCells]
    · rw [Finset.sum_congr rfl fun index _ => hzero _ index]
      exact Finset.sum_const_zero
    · exact hzero _ index
  · rintro pre candidate post capacities hsplit ⟨hlength, hsum, hcounts⟩
    obtain ⟨stratum, index, hin⟩ := hcells candidate
      (hsplit ▸ List.mem_append_right _ List.mem_cons_self)
    have hindex : index < capacities.length := hlength ▸ hin.lt
    have hdocuments : counts capacities index + 1 < 2 ^ 64 := by
      have hle := @List.countP_le_length _
        (fun candidate => decide (candidateCell dataset strata candidate = .ok index)) pre
      rw [hsplit, List.length_append, List.length_cons] at hfits
      rw [hcounts]
      omega
    have hwidth : toWidth 64 (capacities.getD index 0 + 1 : ℕ) = some ⟨_, hdocuments⟩ :=
      toWidth_eq_some.mpr rfl
    have hgive : counts (capacities.set index ⟨_, hdocuments⟩) =
        (RoundRobin.State.give ⟨counts capacities, 0⟩ index).filled := counts_set hindex _
    refine ⟨capacities.set index ⟨_, hdocuments⟩, ?_, ?_, ?_, fun other => ?_⟩
    · rw [countCandidate, hin.cell, ok_bind, hwidth]
      rfl
    · rw [List.length_set, hlength]
    · rw [hgive, RoundRobin.State.sum_give _ (Finset.mem_range.mpr hin.lt), List.length_append,
        List.length_singleton]
      exact congrArg Nat.succ hsum
    · rw [hgive, List.countP_append, List.countP_singleton, hin.cell]
      rcases eq_or_ne other index with rfl | hne
      · rw [RoundRobin.State.filled_give_self, if_pos (decide_eq_true rfl)]
        exact congrArg Nat.succ (hcounts other)
      · rw [RoundRobin.State.filled_give_of_ne _ hne, if_neg (by simpa using hne.symm)]
        exact hcounts other

end Counting

/-! ### The policy -/

theorem exists_zeroDigest : ∃ digest, zeroDigest = .ok digest := by
  have hdigest : IsDigest (String.ofList (List.replicate 64 '0')) := by
    rw [IsDigest, String.toList_ofList]
    exact ⟨List.length_replicate, fun c hc => List.eq_of_mem_replicate hc ▸ by decide⟩
  refine ⟨⟨_, hdigest⟩, ?_⟩
  rw [zeroDigest, Digest.new, dif_pos hdigest]
  rfl

/-- What the three targets hold: each is a filling from where the one before it ended. -/
structure Dealt (dataset : DatasetIdentity) (strata : List BenchmarkLengthStratum)
    (capacities small middle large : List U64) : Prop where
  length_small : small.length = dataset.includedRelations.length * strata.length
  length_middle : middle.length = dataset.includedRelations.length * strata.length
  length_large : large.length = dataset.includedRelations.length * strata.length
  first : RoundRobin.Fill (counts capacities) (relationCells strata.length) 512
    (List.range dataset.includedRelations.length) ⟨fun _ => 0, 0⟩ (fillState small 512)
  second : RoundRobin.Fill (counts capacities) (relationCells strata.length) 2000
    (List.range dataset.includedRelations.length) (fillState small 512) (fillState middle 2000)
  third : RoundRobin.Fill (counts capacities) (relationCells strata.length) 10000
    (List.range dataset.includedRelations.length) (fillState middle 2000) (fillState large 10000)

section Policy

variable {dataset : DatasetIdentity} {strata : List BenchmarkLengthStratum}
  {candidates : List BenchmarkSelectionCandidate}

/-- One target goes on from what the cells hold. -/
theorem pushTarget_spec {capacities allocated : List U64} {total : U64} (documentCount : U64)
    (targets : List BenchmarkTargetQuota)
    (hlength : allocated.length = dataset.includedRelations.length * strata.length)
    (hsound : RoundRobin.Sound (counts capacities)
      (Finset.range (dataset.includedRelations.length * strata.length)) (fillState allocated total))
    (hle : total ≤ documentCount)
    (hroom : (documentCount : ℕ) ≤
      ∑ cell ∈ Finset.range (dataset.includedRelations.length * strata.length),
        counts capacities cell) :
    ∃ after, pushTarget capacities dataset strata (allocated, total, targets) documentCount =
        .ok (after, documentCount,
          targets ++ [targetQuota (expectedCells dataset strata) documentCount after]) ∧
      after.length = dataset.includedRelations.length * strata.length ∧
      RoundRobin.Sound (counts capacities)
        (Finset.range (dataset.includedRelations.length * strata.length))
        (fillState after documentCount) ∧
      RoundRobin.Fill (counts capacities) (relationCells strata.length) documentCount
        (List.range dataset.includedRelations.length) (fillState allocated total)
        (fillState after documentCount) := by
  obtain ⟨after, total', hrun, hfill, hlength'⟩ := fillTarget_spec hlength hsound hle
    (Nat.sub_le _ _) hroom
  obtain rfl : total' = documentCount := Fin.ext hfill.total_eq
  refine ⟨after, ?_, hlength', ?_, hfill⟩
  · rw [pushTarget, hrun]
    rfl
  · exact hfill.preserves (fun r hr _ _ hvisit =>
      hvisit.sound (relationCells_subset (List.mem_range.mp hr))) hsound

/-- **The policy.** It carries the strata, and three targets dealt out over the capacities
of the cells. -/
theorem benchmarkSelectionPolicy_spec (selectionSeed : String)
    (hcells : ∀ candidate ∈ candidates, ∃ stratum index,
      InCell dataset strata candidate stratum index)
    (hmany : 10000 ≤ candidates.length) (hfits : candidates.length < 2 ^ 64) :
    ∃ policy capacities small middle large,
      benchmarkSelectionPolicy dataset strata candidates selectionSeed = .ok policy ∧
      policy.schemaVersion = policySchema ∧
      policy.algorithm = "staged_stratified_sha256_v1" ∧
      policy.selectionSeed = selectionSeed ∧ policy.lengthStrata = strata ∧
      policy.targets = [targetQuota (expectedCells dataset strata) 512 small,
        targetQuota (expectedCells dataset strata) 2000 middle,
        targetQuota (expectedCells dataset strata) 10000 large] ∧
      (∀ index, counts capacities index = candidates.countP fun candidate =>
        candidateCell dataset strata candidate = .ok index) ∧
      Dealt dataset strata capacities small middle large := by
  obtain ⟨capacities, hcount, hlength, hsum, hcapacity⟩ := foldlM_countCandidate hfits hcells
  have hroom : ∀ documentCount : ℕ, documentCount ≤ 10000 → documentCount ≤
      ∑ cell ∈ Finset.range (dataset.includedRelations.length * strata.length),
        counts capacities cell := by
    intro documentCount hle
    rw [hsum]
    exact hle.trans hmany
  have htotal : capacities.foldlM (fun total (value : U64) =>
      orThrow (checkedAdd 64 total value) Error.countOverflow) 0 = .ok candidates.length := by
    refine (@foldlM_add_eq_ok _ _ 64 _ (fun _ => True) (fun value : U64 => (value : ℕ))
      (fun total value t => by simp) _ _ _ (by decide)).mpr ⟨fun _ _ => trivial, ?_, ?_⟩
    · rw [← sum_counts, hlength, hsum, Nat.zero_add]
      exact hfits
    · rw [← sum_counts, hlength, hsum, Nat.zero_add]
  have hzero : fillState (List.replicate (expectedCells dataset strata).length 0) 0 =
      ⟨fun _ => 0, 0⟩ := by
    refine congrArg (fun filled => RoundRobin.State.mk filled 0) (funext fun index => ?_)
    rw [counts, List.getD_eq_getElem?_getD, List.getElem?_replicate]
    split <;> rfl
  have hsound : RoundRobin.Sound (counts capacities)
      (Finset.range (dataset.includedRelations.length * strata.length))
      (fillState (List.replicate (expectedCells dataset strata).length 0) 0) := by
    rw [hzero]
    exact ⟨fun _ _ => Nat.zero_le _, Finset.sum_const_zero⟩
  obtain ⟨small, hsmall, hsmallLength, hsmallSound, hfirst⟩ := @pushTarget_spec
    dataset strata capacities _ _ 512 []
    ((List.length_replicate).trans (length_expectedCells dataset strata)) hsound
    (by decide) (hroom 512 (by decide))
  obtain ⟨middle, hmiddle, hmiddleLength, hmiddleSound, hsecond⟩ := pushTarget_spec 2000
    [targetQuota (expectedCells dataset strata) 512 small]
    hsmallLength hsmallSound (by decide) (hroom 2000 (by decide))
  obtain ⟨large, hlarge, hlargeLength, -, hthird⟩ := pushTarget_spec 10000
    [targetQuota (expectedCells dataset strata) 512 small,
      targetQuota (expectedCells dataset strata) 2000 middle]
    hmiddleLength hmiddleSound (by decide) (hroom 10000 (by decide))
  obtain ⟨digest, hdigest⟩ := exists_zeroDigest
  rw [hzero] at hfirst
  refine ⟨⟨policySchema, digest, "staged_stratified_sha256_v1", selectionSeed, strata, _⟩,
    capacities, small, middle, large, ?_, rfl, rfl, rfl, rfl, rfl, hcapacity,
    ⟨hsmallLength, hmiddleLength, hlargeLength, hfirst, hsecond, hthird⟩⟩
  have hrun : standardBenchmarkSizes.foldlM (pushTarget capacities dataset strata)
      (List.replicate (expectedCells dataset strata).length 0, 0, []) = .ok (large, 10000,
        [targetQuota (expectedCells dataset strata) 512 small,
          targetQuota (expectedCells dataset strata) 2000 middle,
          targetQuota (expectedCells dataset strata) 10000 large]) := by
    rw [standardBenchmarkSizes, List.foldlM_cons, hsmall, ok_bind, List.foldlM_cons]
    show pushTarget capacities dataset strata (small, 512, [_]) 2000 >>= _ = _
    rw [hmiddle, ok_bind, List.foldlM_cons]
    show pushTarget capacities dataset strata (middle, 2000, [_, _]) 10000 >>= _ = _
    rw [hlarge]
    rfl
  rw [benchmarkSelectionPolicy, hcount, ok_bind, htotal, ok_bind,
    throwIf_bind_of_not (not_lt.mpr hmany), hrun, ok_bind, hdigest]
  rfl

end Policy

end LivefireRag.Builder
