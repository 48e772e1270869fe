import Mathlib.Data.List.GetD
import Mathlib.Data.List.Sort
import LivefireRag.Lib.Bytes
import LivefireRag.Pipeline.PlanSpec

/-!
# Document token counts

One token count per document, kept beside the plan as a byte object and bound to
it by digests: a digest of all counts, one of each task's counts and one of each
slice's counts, every count together with its absolute ordinal.

`validateCountsAgainstPlan` recomputes every derived quantity of the plan from
the counts. `CountsBound` says what it checks.
-/

namespace LivefireRag.Pipeline

open Fallible Machine

def documentTokenCountsDomain : List UInt8 :=
  Text.utf8 "livefire.rag.document-token-counts/1" ++ [0]

/-- The bytes one count contributes to a counts digest: its ordinal, its value. -/
def countEntryBytes (startOrdinal : U64) (entry : U32 × ℕ) : Result (List UInt8) := do
  let ordinal : U64 ← orThrow (toWidth 64 (startOrdinal + entry.2)) (.invalid "token count ordinal")
  requireSafeU64 ordinal
  return Bytes.toLeBytes 8 ordinal ++ Bytes.toLeBytes 4 entry.1

def documentTokenCountsDigest (prims : Primitives) (startOrdinal : U64) (counts : List U32) :
    Result Digest := do
  let entries ← counts.zipIdx.mapM (countEntryBytes startOrdinal)
  return prims.sha256 (documentTokenCountsDomain ++ entries.flatten)

def encodeDocumentTokenCounts (counts : List U32) : List UInt8 :=
  counts.flatMap fun count => Bytes.toLeBytes 4 count

def addCount (total : U64) (count : U32) : Result U64 :=
  orThrow (toWidth 64 (total + count)) (.invalid "token total")

def sumCounts (counts : List U32) : Result U64 := counts.foldlM addCount 0

def maximumCount (counts : List U32) : Result U32 :=
  orThrow counts.max? (.invalid "empty token counts")

/-- The rank of a percentile among `n` sorted values, counted from 1. -/
def percentileRank (n percent : ℕ) : ℕ :=
  n / 100 * percent + (n % 100 * percent + 99) / 100

/-- The value at a percentile of a sorted list. The rank of a percentile of at
most 100 lies in a non-empty list (`percentileRank_le`). -/
def percentile (sorted : List U32) (percent : ℕ) : U32 :=
  sorted.getD (percentileRank sorted.length percent - 1) 0

def tokenStatistics (counts : List U32) : Result TokenStatistics := do
  throwIf (0 ∈ counts) (.invalid "zero document token count")
  if counts = [] then return ⟨0, 0, 0, 0, 0, 0⟩
  else
    let sorted := counts.insertionSort (· ≤ ·)
    let totalTokens ← sumCounts counts
    return ⟨totalTokens, percentile sorted 50, percentile sorted 90, percentile sorted 95,
      percentile sorted 99, sorted.getLastD 0⟩

section Hashing

variable (prims : Primitives)

/-- The totals of one run of counts against the ones recorded for it. -/
def checkCounts (counts : List U32) (startOrdinal : U64) (tokenCount : U64)
    (maximumDocumentTokens : U32) (documentTokenCountsSha256 : Digest) (error : PipelineError) :
    Result Unit := do
  let total ← sumCounts counts
  throwIf (total ≠ tokenCount) error
  let maximum ← maximumCount counts
  throwIf (maximum ≠ maximumDocumentTokens) error
  let digest ← documentTokenCountsDigest prims startOrdinal counts
  throwIf (digest ≠ documentTokenCountsSha256) error

/-- One slice of a task against its counts, from `sliceStart` on. -/
def validateSliceCounts (counts : List U32) (sliceStart : ℕ) (slice : EmbeddingInputSliceV2) :
    Result ℕ := do
  let sliceEnd ← orThrow (checkedAdd 64 sliceStart slice.rows) (.invalid "slice token range")
  let sliceCounts ← orThrow (rowRange counts sliceStart sliceEnd) (.invalid "slice token range")
  let absoluteStart : U64 ← orThrow (toWidth 64 sliceStart) (.invalid "slice token range")
  checkCounts prims sliceCounts absoluteStart slice.tokenCount slice.maximumDocumentTokens
    slice.documentTokenCountsSha256 (.invalid "slice token count binding")
  return sliceEnd

def validateTaskCounts (counts : List U32) (task : EmbeddingTaskV2) : Result Unit := do
  let taskCounts ← orThrow (rowRange counts task.ordinalStart task.ordinalEnd)
    (.invalid "task token range")
  checkCounts prims taskCounts task.ordinalStart task.tokenCount task.maximumDocumentTokens
    task.documentTokenCountsSha256 (.invalid "task token count binding")
  let sliceStart ← task.inputSlices.foldlM (validateSliceCounts prims counts) task.ordinalStart
  throwIf (sliceStart ≠ task.ordinalEnd) (.invalid "slice token count coverage")

def validateCountsAgainstPlan (plan : EmbeddingPlanV2) (counts : List U32) : Result Unit := do
  throwIf (counts.length ≠ (plan.documentCount : ℕ) ∨
      ∃ count ∈ counts, count = 0 ∨ plan.embeddingProfile.maximumInputTokens < count)
    (.invalid "document token count coverage")
  let encoded := encodeDocumentTokenCounts counts
  throwIf (encoded.length ≠ (plan.documentTokenCountsObject.bytes : ℕ) ∨
      digestBytes prims encoded ≠ plan.documentTokenCountsObject.sha256)
    (.invalid "document token count object binding")
  let digest ← documentTokenCountsDigest prims 0 counts
  throwIf (digest ≠ plan.documentTokenCountsSha256)
    (.invalid "document token count object binding")
  let statistics ← tokenStatistics counts
  throwIf (statistics ≠ plan.tokenStatistics) (.invalid "document token count object binding")
  forM plan.tasks (validateTaskCounts prims counts)

def EmbeddingPlanV2.validateDocumentTokenCounts (plan : EmbeddingPlanV2) (counts : List U32) :
    Result Unit := do
  plan.validate prims
  validateCountsAgainstPlan prims plan counts

end Hashing

/-! ### Sums, digests and maxima of counts -/

theorem sumCounts_eq_ok {counts : List U32} {total : U64} :
    sumCounts counts = .ok total ↔ (counts.map Fin.val).sum = total := by
  suffices H : ∀ (counts : List U32) (acc total : U64), counts.foldlM addCount acc = .ok total ↔
      (acc : ℕ) + (counts.map Fin.val).sum = total by
    rw [sumCounts, H, Fin.val_zero, Nat.zero_add]
  intro counts
  induction counts with
  | nil => simp [Fin.ext_iff]
  | cons count counts ih =>
    intro acc total
    simp only [List.foldlM_cons, bind_eq_ok, addCount, orThrow_eq_ok, toWidth_eq_some, ih,
      List.map_cons, List.sum_cons]
    constructor
    · rintro ⟨next, hnext, hrest⟩
      omega
    · intro hsum
      have hlt := total.isLt
      exact ⟨⟨acc + count, by omega⟩, rfl, by simp only; omega⟩

theorem maximumCount_eq_ok {counts : List U32} {maximum : U32} :
    maximumCount counts = .ok maximum ↔ counts.max? = some maximum := orThrow_eq_ok

/-- The digest of counts whose ordinals are safe integers. -/
theorem documentTokenCountsDigest_total (prims : Primitives) (startOrdinal : U64)
    (counts : List U32) (h : (startOrdinal : ℕ) + counts.length ≤ maxSafeJsonInteger + 1) :
    ∃ digest, documentTokenCountsDigest prims startOrdinal counts = .ok digest := by
  have hentries : ∀ entry ∈ counts.zipIdx, ∃ bytes, countEntryBytes startOrdinal entry =
      .ok bytes ∧ True := by
    rintro ⟨count, offset⟩ hmem
    have hoffset : offset < counts.length := by
      simpa using List.snd_lt_of_mem_zipIdx hmem
    have hsafe : (startOrdinal : ℕ) + offset ≤ maxSafeJsonInteger := by omega
    have hlt : (startOrdinal : ℕ) + offset < 2 ^ 64 := by
      unfold maxSafeJsonInteger at hsafe
      omega
    simp only [countEntryBytes, bind_eq_ok, exists_unit, orThrow_eq_ok, toWidth_eq_some,
      requireSafeU64_eq_ok, and_true]
    exact ⟨_, ⟨startOrdinal + offset, hlt⟩, rfl, hsafe, rfl⟩
  obtain ⟨entries, hrun, -⟩ := mapM_total hentries
  exact ⟨_, bind_eq_ok.mpr ⟨entries, hrun, rfl⟩⟩

theorem checkCounts_eq_ok {prims : Primitives} {counts : List U32} {startOrdinal tokenCount : U64}
    {maximum : U32} {digest : Digest} {error : PipelineError} {u : Unit} :
    checkCounts prims counts startOrdinal tokenCount maximum digest error = .ok u ↔
      sumCounts counts = .ok tokenCount ∧ maximumCount counts = .ok maximum ∧
        documentTokenCountsDigest prims startOrdinal counts = .ok digest := by
  simp only [checkCounts, bind_eq_ok, exists_unit, throwIf_eq_ok, not_not]
  constructor
  · rintro ⟨_, h1, rfl, _, h2, rfl, _, h3, rfl⟩
    exact ⟨h1, h2, h3⟩
  · rintro ⟨h1, h2, h3⟩
    exact ⟨_, h1, rfl, _, h2, rfl, _, h3, rfl⟩

theorem length_encodeDocumentTokenCounts (counts : List U32) :
    (encodeDocumentTokenCounts counts).length = counts.length * 4 := by
  simp [encodeDocumentTokenCounts, List.length_flatMap, Nat.mul_comm]

/-! ### Statistics -/

theorem percentileRank_mono {n p q : ℕ} (h : p ≤ q) : percentileRank n p ≤ percentileRank n q := by
  have h1 : n / 100 * p ≤ n / 100 * q := Nat.mul_le_mul_left _ h
  have h2 : n % 100 * p ≤ n % 100 * q := Nat.mul_le_mul_left _ h
  unfold percentileRank
  omega

theorem percentileRank_hundred (n : ℕ) : percentileRank n 100 = n := by
  unfold percentileRank
  omega

/-- The rank of a percentile of a non-empty list is a position of it. -/
theorem percentileRank_le {n percent : ℕ} (h : percent ≤ 100) : percentileRank n percent ≤ n :=
  (percentileRank_mono h).trans (percentileRank_hundred n).le

theorem percentile_eq_getElem {sorted : List U32} {percent : ℕ} (hne : sorted ≠ [])
    (h : percent ≤ 100) :
    ∃ hlt : percentileRank sorted.length percent - 1 < sorted.length,
      percentile sorted percent = sorted[percentileRank sorted.length percent - 1] := by
  have hpos := List.length_pos_iff.mpr hne
  have hle := percentileRank_le (n := sorted.length) h
  exact ⟨by omega, List.getD_eq_getElem _ _ (by omega)⟩

/-- Percentiles of a sorted list grow with the percentage. -/
theorem percentile_mono {sorted : List U32} (hsorted : sorted.Pairwise (· ≤ ·)) {p q : ℕ}
    (hpq : p ≤ q) (hq : q ≤ 100) : percentile sorted p ≤ percentile sorted q := by
  by_cases hne : sorted = []
  · simp [hne, percentile]
  · obtain ⟨h1, hp⟩ := percentile_eq_getElem hne (hpq.trans hq)
    obtain ⟨h2, hq'⟩ := percentile_eq_getElem hne hq
    rw [hp, hq']
    have hrank := percentileRank_mono (n := sorted.length) hpq
    exact hsorted.rel_get_of_le (a := ⟨_, h1⟩) (b := ⟨_, h2⟩) (by simp only [Fin.mk_le_mk]; omega)

/-- The shape of computed statistics: the total, the maximum, and percentiles
between the least count and the maximum in order. -/
structure StatisticsOf (counts : List U32) (statistics : TokenStatistics) : Prop where
  total : sumCounts counts = .ok statistics.totalTokens
  maximum : counts.max? = some statistics.maximumTokens
  p50_le_p90 : statistics.p50Tokens ≤ statistics.p90Tokens
  p90_le_p95 : statistics.p90Tokens ≤ statistics.p95Tokens
  p95_le_p99 : statistics.p95Tokens ≤ statistics.p99Tokens
  p99_le_maximum : statistics.p99Tokens ≤ statistics.maximumTokens

theorem tokenStatistics_of_pos {counts : List U32} {total : U64} (hne : counts ≠ [])
    (hpos : 0 ∉ counts) (htotal : sumCounts counts = .ok total) :
    ∃ statistics, tokenStatistics counts = .ok statistics ∧ StatisticsOf counts statistics := by
  have hperm := List.perm_insertionSort (· ≤ ·) counts
  have hsorted := List.pairwise_insertionSort (· ≤ ·) counts
  have hsne : counts.insertionSort (· ≤ ·) ≠ [] := fun h =>
    hne (List.perm_nil.mp (h ▸ hperm).symm)
  have hlast : (counts.insertionSort (· ≤ ·)).getLastD 0 =
      (counts.insertionSort (· ≤ ·)).getLast hsne := by
    rw [List.getLastD_eq_getLast?, List.getLast?_eq_some_getLast hsne, Option.getD_some]
  -- the last of the sorted counts bounds them all
  have hbound : ∀ count ∈ counts.insertionSort (· ≤ ·),
      count ≤ (counts.insertionSort (· ≤ ·)).getLastD 0 := by
    intro count hcount
    rw [hlast]
    exact hsorted.rel_getLast hcount
  have hmax : counts.max? = some ((counts.insertionSort (· ≤ ·)).getLastD 0) := by
    rw [List.max?_eq_some_iff]
    refine ⟨?_, fun count hcount => hbound count (hperm.mem_iff.mpr hcount)⟩
    rw [hlast]
    exact hperm.mem_iff.mp (List.getLast_mem hsne)
  have hp99 : percentile (counts.insertionSort (· ≤ ·)) 99 ∈ counts.insertionSort (· ≤ ·) := by
    obtain ⟨hlt, heq⟩ := percentile_eq_getElem hsne (show 99 ≤ 100 by decide)
    rw [heq]
    exact List.getElem_mem hlt
  have hrun : tokenStatistics counts = .ok ⟨total,
      percentile (counts.insertionSort (· ≤ ·)) 50, percentile (counts.insertionSort (· ≤ ·)) 90,
      percentile (counts.insertionSort (· ≤ ·)) 95, percentile (counts.insertionSort (· ≤ ·)) 99,
      (counts.insertionSort (· ≤ ·)).getLastD 0⟩ := by
    rw [tokenStatistics, throwIf_bind_of_not hpos, if_neg hne, htotal]
    rfl
  exact ⟨_, hrun, htotal, hmax, percentile_mono hsorted (by decide) (by decide),
    percentile_mono hsorted (by decide) (by decide),
    percentile_mono hsorted (by decide) (by decide), hbound _ hp99⟩

end LivefireRag.Pipeline
