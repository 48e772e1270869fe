import LivefireRag.Lib.Percentile
import LivefireRag.Pipeline.TokenCounts

/-!
# Token statistics

The percentiles of the statistics are nearest-rank percentiles of the counts
(`NearestRankStatistics`). The rank is split into a quotient and a remainder part, which
never exceed the number of counts by more than 64 bits hold (`RankInRange`), and its
position always lies in the list. Nothing depends on the order of the counts.
-/

namespace LivefireRag.Pipeline

open Fallible Machine Percentile

/-- The position that a percentile is read from, and what is computed on the way to it. -/
structure RankInRange (n percent : ℕ) : Prop where
  quotient : n / 100 * percent < 2 ^ 64
  remainder : n % 100 * percent < 2 ^ 64
  rank : percentileRank n percent < 2 ^ 64
  index : percentileRank n percent - 1 < n

/-- Every percentile has its rank among the counts, and they grow up to the maximum. -/
structure NearestRankStatistics (counts : List U32) (statistics : TokenStatistics) : Prop where
  p50 : IsNearestRank counts ((50 * counts.length) ⌈/⌉ 100) statistics.p50Tokens
  p90 : IsNearestRank counts ((90 * counts.length) ⌈/⌉ 100) statistics.p90Tokens
  p95 : IsNearestRank counts ((95 * counts.length) ⌈/⌉ 100) statistics.p95Tokens
  p99 : IsNearestRank counts ((99 * counts.length) ⌈/⌉ 100) statistics.p99Tokens
  maximum : counts.max? = some statistics.maximumTokens
  ascending : [statistics.p50Tokens, statistics.p90Tokens, statistics.p95Tokens,
    statistics.p99Tokens, statistics.maximumTokens].Pairwise (· ≤ ·)

theorem percentileRank_eq_ceilDiv (n percent : ℕ) :
    percentileRank n percent = (percent * n) ⌈/⌉ 100 := rank_eq_ceilDiv n percent

theorem rankInRange {n percent : ℕ} (hn : 0 < n) (hsize : n < 2 ^ 64) (h : percent ≤ 100) :
    RankInRange n percent := by
  have hrank : percentileRank n percent ≤ n := percentileRank_le h
  have hquotient : n / 100 * percent ≤ percentileRank n percent := Nat.le_add_right _ _
  have hremainder : n % 100 * percent ≤ 99 * 100 :=
    Nat.mul_le_mul (Nat.le_of_lt_succ (Nat.mod_lt n (by decide))) h
  exact ⟨by omega, by omega, by omega, by omega⟩

/-- A percentile of the sorted counts is the nearest-rank percentile of the counts. -/
theorem isNearestRank_percentile {counts : List U32} (hne : counts ≠ []) {percent : ℕ}
    (hpos : 0 < percent) (h : percent ≤ 100) :
    IsNearestRank counts ((percent * counts.length) ⌈/⌉ 100)
      (percentile (counts.insertionSort (· ≤ ·)) percent) := by
  have hperm := List.perm_insertionSort (· ≤ ·) counts
  have hsorted := List.pairwise_insertionSort (· ≤ ·) counts
  have hlength : (counts.insertionSort (· ≤ ·)).length = counts.length := hperm.length_eq
  have hsne : counts.insertionSort (· ≤ ·) ≠ [] := by
    intro hnil
    rw [hnil, List.length_nil] at hlength
    exact hne (List.length_eq_zero_iff.mp hlength.symm)
  obtain ⟨hlt, hvalue⟩ := percentile_eq_getElem hsne h
  -- the rank is at least 1, so the position before it is the rank less one
  have hrank := (ceilDiv_mem_Icc (List.length_pos_iff.mpr hne) hpos h).1
  have hposition : percentileRank (counts.insertionSort (· ≤ ·)).length percent - 1 + 1 =
      (percent * counts.length) ⌈/⌉ 100 := by
    rw [percentileRank_eq_ceilDiv, hlength, Nat.sub_add_cancel hrank]
  have hnearest := (isNearestRank_getElem hsorted hlt).perm hperm
  rw [hposition] at hnearest
  rw [hvalue]
  exact hnearest

theorem StatisticsOf.ascending {counts : List U32} {statistics : TokenStatistics}
    (h : StatisticsOf counts statistics) :
    [statistics.p50Tokens, statistics.p90Tokens, statistics.p95Tokens, statistics.p99Tokens,
      statistics.maximumTokens].Pairwise (· ≤ ·) := by
  rw [← List.isChain_iff_pairwise]
  simp only [List.isChain_cons_cons, List.isChain_singleton, and_true]
  exact ⟨h.p50_le_p90, h.p90_le_p95, h.p95_le_p99, h.p99_le_maximum⟩

/-- The statistics are those of the sorted counts, when the total fits. -/
theorem tokenStatistics_eq_ok {counts : List U32} {statistics : TokenStatistics}
    (hne : counts ≠ []) (h : tokenStatistics counts = .ok statistics) :
    0 ∉ counts ∧ sumCounts counts = .ok statistics.totalTokens ∧
      statistics = ⟨statistics.totalTokens,
        percentile (counts.insertionSort (· ≤ ·)) 50, percentile (counts.insertionSort (· ≤ ·)) 90,
        percentile (counts.insertionSort (· ≤ ·)) 95, percentile (counts.insertionSort (· ≤ ·)) 99,
        (counts.insertionSort (· ≤ ·)).getLastD 0⟩ := by
  rw [tokenStatistics, if_neg hne] at h
  simp only [bind_eq_ok, exists_unit, throwIf_eq_ok, pure_eq_ok] at h
  obtain ⟨hpos, total, htotal, rfl⟩ := h
  exact ⟨hpos, htotal, rfl⟩

/-- Statistics that are computed are nearest-rank statistics. -/
theorem nearestRankStatistics {counts : List U32} (hne : counts ≠ [])
    {statistics : TokenStatistics} (h : tokenStatistics counts = .ok statistics) :
    NearestRankStatistics counts statistics := by
  obtain ⟨hpos, htotal, heq⟩ := tokenStatistics_eq_ok hne h
  obtain ⟨others, hothers, hof⟩ := tokenStatistics_of_pos hne hpos htotal
  obtain rfl : statistics = others := Except.ok.inj (h.symm.trans hothers)
  have hnearest (percent : ℕ) (hlow : 0 < percent) (hhigh : percent ≤ 100) :=
    isNearestRank_percentile hne hlow hhigh
  constructor
  · rw [heq]
    exact hnearest 50 (by decide) (by decide)
  · rw [heq]
    exact hnearest 90 (by decide) (by decide)
  · rw [heq]
    exact hnearest 95 (by decide) (by decide)
  · rw [heq]
    exact hnearest 99 (by decide) (by decide)
  · exact hof.maximum
  · exact hof.ascending

/-- A sum fails in one way. -/
theorem foldlM_addCount_eq_error {counts : List U32} {total : U64} {e : PipelineError}
    (h : counts.foldlM addCount total = .error e) : e = .invalid "token total" := by
  induction counts generalizing total with
  | nil => cases h
  | cons count counts ih =>
    rw [List.foldlM_cons] at h
    cases hadd : addCount total count with
    | ok next =>
      rw [hadd] at h
      exact ih h
    | error e' =>
      rw [hadd] at h
      obtain rfl : e' = e := Except.error.inj h
      unfold addCount at hadd
      cases hwidth : (toWidth 64 (total + count) : Option U64) <;> rw [hwidth] at hadd
      · exact (Except.error.inj hadd).symm
      · cases hadd

theorem sumCounts_perm {counts counts' : List U32} (hperm : counts.Perm counts') :
    sumCounts counts' = sumCounts counts := by
  have hsum : (counts'.map Fin.val).sum = (counts.map Fin.val).sum := (hperm.map _).sum_eq.symm
  cases hcounts : sumCounts counts with
  | ok total => rw [sumCounts_eq_ok, hsum, ← sumCounts_eq_ok, hcounts]
  | error e =>
    cases hcounts' : sumCounts counts' with
    | ok total =>
      rw [sumCounts_eq_ok, hsum, ← sumCounts_eq_ok, hcounts] at hcounts'
      cases hcounts'
    | error e' => rw [foldlM_addCount_eq_error hcounts, foldlM_addCount_eq_error hcounts']

/-- The order of the counts does not matter. -/
theorem tokenStatistics_perm {counts counts' : List U32} (hperm : counts.Perm counts') :
    tokenStatistics counts' = tokenStatistics counts := by
  have hsorted : counts'.insertionSort (· ≤ ·) = counts.insertionSort (· ≤ ·) :=
    List.Perm.eq_of_pairwise (fun _ _ _ _ => le_antisymm)
      (List.pairwise_insertionSort (· ≤ ·) counts') (List.pairwise_insertionSort (· ≤ ·) counts)
      ((List.perm_insertionSort _ _).trans (hperm.symm.trans (List.perm_insertionSort _ _).symm))
  have hnil : counts' = [] ↔ counts = [] := by
    rw [← List.length_eq_zero_iff, ← List.length_eq_zero_iff, hperm.length_eq]
  simp only [tokenStatistics, hsorted, sumCounts_perm hperm, hperm.mem_iff, hnil]

/-- Statistics are computed exactly when the total fits 64 bits. -/
theorem exists_tokenStatistics {counts : List U32} (hne : counts ≠ []) (hpos : 0 ∉ counts) :
    (∃ statistics, tokenStatistics counts = .ok statistics) ↔
      (counts.map Fin.val).sum < 2 ^ 64 := by
  constructor
  · rintro ⟨statistics, h⟩
    obtain ⟨-, htotal, -⟩ := tokenStatistics_eq_ok hne h
    rw [sumCounts_eq_ok.mp htotal]
    exact statistics.totalTokens.isLt
  · intro hsum
    have htotal : sumCounts counts = .ok ⟨(counts.map Fin.val).sum, hsum⟩ :=
      sumCounts_eq_ok.mpr rfl
    obtain ⟨statistics, hstatistics, -⟩ := tokenStatistics_of_pos hne hpos htotal
    exact ⟨statistics, hstatistics⟩

/-- **The percentiles are nearest-rank percentiles.** -/
theorem token_statistics_nearest_rank {counts : List U32} (hne : counts ≠ []) (hpos : 0 ∉ counts) :
    (∀ statistics, tokenStatistics counts = .ok statistics →
      NearestRankStatistics counts statistics) ∧
    ((∃ statistics, tokenStatistics counts = .ok statistics) ↔
      (counts.map Fin.val).sum < 2 ^ 64) ∧
    (∀ percent ∈ [50, 90, 95, 99], ∀ n, 0 < n → n < 2 ^ 64 → RankInRange n percent) ∧
    ∀ counts', counts.Perm counts' → tokenStatistics counts' = tokenStatistics counts := by
  refine ⟨fun statistics h => nearestRankStatistics hne h, exists_tokenStatistics hne hpos, ?_,
    fun counts' hperm => tokenStatistics_perm hperm⟩
  intro percent hpercent n hn hsize
  refine rankInRange hn hsize ?_
  simp only [List.mem_cons, List.not_mem_nil, or_false] at hpercent
  omega

/-- Three counts: half of them do not exceed the second smallest. -/
theorem three_counts_nearest_rank :
    tokenStatistics [3, 1, 2] = .ok ⟨6, 2, 3, 3, 3, 3⟩ ∧
      NearestRankStatistics [3, 1, 2] ⟨6, 2, 3, 3, 3, 3⟩ ∧
      tokenStatistics [1, 2, 3] = tokenStatistics [3, 1, 2] := by
  have hrun : tokenStatistics [3, 1, 2] = .ok ⟨6, 2, 3, 3, 3, 3⟩ := by rfl
  obtain ⟨hnearest, -, -, hperm⟩ :=
    @token_statistics_nearest_rank [3, 1, 2] (by decide) (by decide)
  exact ⟨hrun, hnearest _ hrun, hperm [1, 2, 3] (by decide)⟩

end LivefireRag.Pipeline
