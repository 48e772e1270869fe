import Mathlib.Algebra.Order.Field.Rat
import Mathlib.Algebra.Order.Ring.Abs
import Mathlib.Algebra.Order.BigOperators.Group.List
import Mathlib.Tactic.FieldSimp
import Mathlib.Tactic.Linarith
import Mathlib.Tactic.Ring
import LivefireRag.Lib.Nearest
import LivefireRag.Cloud.Assignment

/-!
# Token-balanced boundaries

`tokenBalancedBoundaries` cuts the tasks of a plan for `w` workers. Boundary `k`
is chosen nearest to the share `total * k / w` of the tokens among the positions
that leave a task to every earlier and every later worker, given the boundary
before it. Distances are compared as integers, scaled by `w`.

The source computes in machine integers; an operation out of range would abort
the run, which is the error `aborted` here. `tokenBalancedBoundaries_ok` shows
that the run is never aborted, by an invariant on the boundaries so far: the
last one leaves a task to each of the remaining workers, so the next window is
not empty.
-/

namespace LivefireRag.Cloud

open Pipeline Fallible Machine Tiling Nearest

/-! ### The computation -/

/-- The token totals of the first `0, 1, …` tasks, as a list that grows at its
end. -/
def pushPrefix (sums : List ℕ) (task : EmbeddingTaskV2) : Result (List ℕ) := do
  let next ← orThrow (checkedAdd 64 (sums.getLast?.getD 0) task.tokenCount)
    (.invalid "cloud token total")
  return sums ++ [next]

/-- The distance between two unsigned integers. -/
def absDiff (a b : ℕ) : ℕ := if a < b then b - a else a - b

/-- One candidate, a token total and its position, against the best one. -/
def nearerBoundary (workerCount target : ℕ) (best : ℕ × ℕ) (entry : ℕ × ℕ) :
    Result (ℕ × ℕ) := do
  let scaled ← orThrow (checkedMul 128 entry.1 workerCount) .aborted
  let distance := absDiff scaled target
  if distance < best.2 then return (entry.2, distance) else return best

/-- The boundary after worker `worker - 1`, pushed to the boundaries so far. -/
def pushBoundary (sums : List ℕ) (taskCount total workerCount : ℕ) (boundaries : List ℕ)
    (worker : ℕ) : Result (List ℕ) := do
  let previous ← orThrow boundaries[worker - 1]? .aborted
  let minimum ← orThrow (checkedAdd 64 previous 1) .aborted
  let remaining ← orThrow (checkedSub workerCount worker) .aborted
  let maximum ← orThrow (checkedSub taskCount remaining) .aborted
  let target ← orThrow (checkedMul 128 total worker) .aborted
  let (best, _) ← ((sums.zipIdx.take (maximum + 1)).drop minimum).foldlM
    (nearerBoundary workerCount target) (minimum, 2 ^ 128 - 1)
  return boundaries ++ [best]

def tokenBalancedBoundaries (plan : EmbeddingPlanV2) (workers : U32) : Result (List ℕ) := do
  let sums ← plan.tasks.foldlM pushPrefix [0]
  let total : U64 ← orThrow (sums.getLast?.bind (toWidth 64)) (.invalid "cloud token total")
  requireSafeU64 total
  let boundaries ← (List.range' 1 ((workers : ℕ) - 1)).foldlM
    (pushBoundary sums plan.tasks.length total workers) [0]
  return boundaries ++ [plan.tasks.length]

/-! ### What it is for -/

/-- The tokens of the first `c` tasks. -/
def tokensBefore (tokens : List ℕ) (c : ℕ) : ℕ := (tokens.take c).sum

/-- How far cutting at `c` is from the exact share of the first `k` of `w`
workers. -/
def shareDistance (tokens : List ℕ) (w k c : ℕ) : ℚ :=
  |(tokensBefore tokens c : ℚ) - tokens.sum * k / w|

/-- The positions that leave a task to each of the `k` first workers, after the
boundary `previous`, and to each of the others. -/
def InWindow (n w k previous c : ℕ) : Prop := previous + 1 ≤ c ∧ c + (w - k) ≤ n

/-- The position in the window nearest to the share, the first one on ties. -/
structure NearestBoundary (tokens : List ℕ) (w k previous b : ℕ) : Prop where
  window : InWindow tokens.length w k previous b
  nearest : ∀ c, InWindow tokens.length w k previous c →
    shareDistance tokens w k b ≤ shareDistance tokens w k c
  first : ∀ c, InWindow tokens.length w k previous c → c < b →
    shareDistance tokens w k b < shareDistance tokens w k c

/-- The boundaries of `w` workers: from 0 to the number of tasks, every inner one
nearest to its share. -/
structure Balanced (tokens : List ℕ) (w : ℕ) (boundaries : List ℕ) : Prop where
  length : boundaries.length = w + 1
  first : boundaries[0]? = some 0
  last : boundaries[w]? = some tokens.length
  increasing : boundaries.Pairwise (· < ·)
  inner : ∀ k, 1 ≤ k → k < w → ∃ previous b, boundaries[k - 1]? = some previous ∧
    boundaries[k]? = some b ∧ NearestBoundary tokens w k previous b

/-! ### Prefix sums -/

/-- The token counts of tasks. -/
def tokenCounts (tasks : List EmbeddingTaskV2) : List ℕ :=
  tasks.map fun task => (task.tokenCount : ℕ)

/-- The totals of the prefixes of a list. -/
def prefixSums (tokens : List ℕ) : List ℕ :=
  (List.range (tokens.length + 1)).map (tokensBefore tokens)

theorem prefixSums_concat (tokens : List ℕ) (t : ℕ) :
    prefixSums (tokens ++ [t]) = prefixSums tokens ++ [tokens.sum + t] := by
  rw [prefixSums, prefixSums, List.length_append, List.length_singleton, List.range_succ,
    List.map_append, List.map_singleton]
  congr 1
  · refine List.map_congr_left fun c hc => ?_
    rw [List.mem_range, Nat.lt_succ_iff] at hc
    rw [tokensBefore, tokensBefore, List.take_append_of_le_length hc]
  · rw [tokensBefore, List.take_of_length_le (by simp), List.sum_append, List.sum_singleton]

theorem getLast?_prefixSums (tokens : List ℕ) : (prefixSums tokens).getLast? = some tokens.sum := by
  rw [prefixSums, List.getLast?_map, List.getLast?_range]
  simp [tokensBefore]

theorem tokensBefore_le (tokens : List ℕ) (c : ℕ) : tokensBefore tokens c ≤ tokens.sum :=
  (List.take_sublist c tokens).sum_le_sum fun _ _ => Nat.zero_le _

/-- The pass over the tasks computes the prefix sums when their total fits. -/
theorem pushPrefix_run {tasks : List EmbeddingTaskV2} (h : (tokenCounts tasks).sum < 2 ^ 64) :
    tasks.foldlM pushPrefix [0] = .ok (prefixSums (tokenCounts tasks)) := by
  have hrun : ∃ sums, tasks.foldlM pushPrefix [0] = .ok sums ∧
      sums = prefixSums (tokenCounts tasks) := by
    refine foldlM_total (P := fun pre sums => sums = prefixSums (tokenCounts pre)) rfl ?_
    rintro pre task post _ hsplit rfl
    refine ⟨_, ?_, rfl⟩
    have hcounts : tokenCounts (pre ++ [task]) = tokenCounts pre ++ [(task.tokenCount : ℕ)] := by
      simp [tokenCounts]
    have hfits : (tokenCounts pre).sum + task.tokenCount < 2 ^ 64 := by
      have hsum : (tokenCounts tasks).sum =
          (tokenCounts pre).sum + (task.tokenCount + (tokenCounts post).sum) := by
        rw [hsplit]
        simp [tokenCounts]
      omega
    rw [pushPrefix, getLast?_prefixSums, Option.getD_some, hcounts, prefixSums_concat]
    exact bind_eq_ok.mpr ⟨_, orThrow_eq_ok.mpr (checkedAdd_eq_some.mpr ⟨hfits, rfl⟩), rfl⟩
  obtain ⟨sums, hsums, rfl⟩ := hrun
  exact hsums

/-- The candidates of a window are its positions with their prefix sums. -/
theorem candidates_eq {tokens : List ℕ} {minimum maximum : ℕ} (h : maximum ≤ tokens.length) :
    ((prefixSums tokens).zipIdx.take (maximum + 1)).drop minimum =
      (List.range' minimum (maximum + 1 - minimum)).map fun c => (tokensBefore tokens c, c) := by
  apply List.ext_getElem?
  intro i
  rw [List.getElem?_drop, List.getElem?_map]
  by_cases hi : minimum + i < maximum + 1
  · rw [List.getElem?_take_of_lt hi, List.getElem?_zipIdx, prefixSums, List.getElem?_map,
      List.getElem?_range (by omega), List.getElem?_range' (by omega)]
    simp
  · rw [List.getElem?_take_eq_none (by omega), List.getElem?_eq_none (by simp; omega)]
    rfl

/-! ### One boundary -/

/-- The distance the source compares: `w` times the distance from the share. -/
theorem cast_absDiff {tokens : List ℕ} {w k c : ℕ} (hw : 0 < w) :
    (absDiff (tokensBefore tokens c * w) (tokens.sum * k) : ℚ) =
      w * shareDistance tokens w k c := by
  have hw' : (0 : ℚ) < w := by exact_mod_cast hw
  have habs : (absDiff (tokensBefore tokens c * w) (tokens.sum * k) : ℚ) =
      |(tokensBefore tokens c * w : ℚ) - tokens.sum * k| := by
    unfold absDiff
    split_ifs with hlt
    · have hcast : ((tokensBefore tokens c * w : ℕ) : ℚ) < (tokens.sum * k : ℕ) := by
        exact_mod_cast hlt
      rw [Nat.cast_mul, Nat.cast_mul] at hcast
      rw [Nat.cast_sub hlt.le, Nat.cast_mul, Nat.cast_mul, abs_of_nonpos (by linarith)]
      ring
    · have hcast : ((tokens.sum * k : ℕ) : ℚ) ≤ (tokensBefore tokens c * w : ℕ) := by
        exact_mod_cast Nat.le_of_not_lt hlt
      rw [Nat.cast_mul, Nat.cast_mul] at hcast
      rw [Nat.cast_sub (Nat.le_of_not_lt hlt), Nat.cast_mul, Nat.cast_mul,
        abs_of_nonneg (by linarith)]
  have hscale : (tokensBefore tokens c * w : ℚ) - tokens.sum * k =
      w * (tokensBefore tokens c - tokens.sum * k / w) := by
    field_simp
  rw [habs, hscale, abs_mul, abs_of_pos hw', shareDistance]

/-- Comparing the scaled distances is comparing the distances. -/
theorem shareDistance_le_iff {tokens : List ℕ} {w k b c : ℕ} (hw : 0 < w) :
    shareDistance tokens w k b ≤ shareDistance tokens w k c ↔
      absDiff (tokensBefore tokens b * w) (tokens.sum * k) ≤
        absDiff (tokensBefore tokens c * w) (tokens.sum * k) := by
  have hw' : (0 : ℚ) < w := by exact_mod_cast hw
  rw [← Nat.cast_le (α := ℚ), cast_absDiff hw, cast_absDiff hw, mul_le_mul_iff_right₀ hw']

section Boundary

variable {tokens : List ℕ} {w : ℕ}

/-- The scan over the candidates of a non-empty window ends with the boundary
nearest to the share. -/
theorem nearerBoundary_run (hw : 0 < w) (hw' : w < 2 ^ 16) (hsum : tokens.sum ≤ maxSafeJsonInteger)
    {k previous maximum : ℕ} (hk : k < w) (hmaximum : maximum + (w - k) = tokens.length)
    (hwindow : previous + 1 ≤ maximum) :
    ∃ best, (((prefixSums tokens).zipIdx.take (maximum + 1)).drop (previous + 1)).foldlM
        (nearerBoundary w (tokens.sum * k)) (previous + 1, 2 ^ 128 - 1) = .ok best ∧
      NearestBoundary tokens w k previous best.1 := by
  -- nothing overflows: totals have 53 bits, worker counts 16
  have hscaled : ∀ n ≤ tokens.sum, n * w < 2 ^ 69 := by
    intro n hn
    unfold maxSafeJsonInteger at hsum
    calc n * w ≤ tokens.sum * w := Nat.mul_le_mul_right _ hn
      _ ≤ 9007199254740991 * w := Nat.mul_le_mul_right _ hsum
      _ < 2 ^ 69 := by omega
  have htarget : tokens.sum * k < 2 ^ 69 :=
    lt_of_le_of_lt (Nat.mul_le_mul_left _ hk.le) (hscaled _ le_rfl)
  have hmem : ∀ c, c ∈ List.range' (previous + 1) (maximum + 1 - (previous + 1)) ↔
      InWindow tokens.length w k previous c := by
    intro c
    rw [List.mem_range'_1, InWindow]
    omega
  have hpure : ∀ entry ∈ (List.range' (previous + 1) (maximum + 1 - (previous + 1))).map
      (fun c => (tokensBefore tokens c, c)), ∀ best,
      nearerBoundary w (tokens.sum * k) best entry =
        .ok (closer (fun c => absDiff (tokensBefore tokens c * w) (tokens.sum * k)) best
          entry.2) := by
    intro entry hentry best
    obtain ⟨c, -, rfl⟩ := List.mem_map.mp hentry
    have hfits := hscaled _ (tokensBefore_le tokens c)
    have hmul : checkedMul 128 (tokensBefore tokens c) w = some (tokensBefore tokens c * w) :=
      checkedMul_eq_some.mpr ⟨by omega, rfl⟩
    rw [nearerBoundary, hmul, closer]
    show (if _ then _ else _) = _
    split_ifs <;> rfl
  have hne : List.range' (previous + 1) (maximum + 1 - (previous + 1)) ≠ [] := by
    rw [ne_eq, List.range'_eq_nil_iff]
    omega
  have hbound : ∀ c ∈ List.range' (previous + 1) (maximum + 1 - (previous + 1)),
      absDiff (tokensBefore tokens c * w) (tokens.sum * k) <
        ((previous + 1, 2 ^ 128 - 1) : ℕ × ℕ).2 := by
    intro c _
    have hfits := hscaled _ (tokensBefore_le tokens c)
    unfold absDiff
    split_ifs <;> omega
  obtain ⟨b, hrun, hmin⟩ := foldl_closer hne hbound
  refine ⟨(b, absDiff (tokensBefore tokens b * w) (tokens.sum * k)), ?_, (hmem b).mp hmin.mem,
    ?_, ?_⟩
  · rw [candidates_eq (by omega), foldlM_eq_foldl hpure, List.foldl_map]
    exact congrArg Except.ok hrun
  · intro c hc
    exact (shareDistance_le_iff hw).mpr (hmin.le ((hmem c).mpr hc))
  · intro c hc hlt
    rw [← not_le, shareDistance_le_iff hw, not_le]
    exact hmin.lt_of_lt List.pairwise_lt_range' ((hmem c).mpr hc) hlt

/-- The boundaries of the first `j` workers: each nearest to its share, the last
one leaving a task to each of the other workers. -/
structure BalancedUpTo (tokens : List ℕ) (w j : ℕ) (boundaries : List ℕ) : Prop where
  length : boundaries.length = j + 1
  first : boundaries[0]? = some 0
  increasing : boundaries.Pairwise (· < ·)
  room : ∀ b ∈ boundaries, b + (w - j) ≤ tokens.length
  inner : ∀ k, 1 ≤ k → k ≤ j → ∃ previous b, boundaries[k - 1]? = some previous ∧
    boundaries[k]? = some b ∧ NearestBoundary tokens w k previous b

/-- One more boundary. The room the last one leaves makes the window of the next
one non-empty. -/
theorem pushBoundary_ok (hw : w < 2 ^ 16) (hsum : tokens.sum ≤ maxSafeJsonInteger)
    (hlength : tokens.length < 2 ^ 64) {j : ℕ} (hj : j + 1 < w) {boundaries : List ℕ}
    (h : BalancedUpTo tokens w j boundaries) :
    ∃ b, pushBoundary (prefixSums tokens) tokens.length tokens.sum w boundaries (j + 1) =
        .ok (boundaries ++ [b]) ∧ BalancedUpTo tokens w (j + 1) (boundaries ++ [b]) := by
  have hlast : j < boundaries.length := by rw [h.length]; exact Nat.lt_succ_self j
  obtain ⟨previous, hprevious⟩ : ∃ previous, boundaries[j]? = some previous :=
    ⟨_, List.getElem?_eq_getElem hlast⟩
  have hroom := h.room previous (List.mem_of_getElem? hprevious)
  obtain ⟨best, hrun, hnearest⟩ := nearerBoundary_run (Nat.zero_lt_of_lt hj) hw hsum hj
    (show tokens.length - (w - (j + 1)) + (w - (j + 1)) = tokens.length by omega)
    (show previous + 1 ≤ tokens.length - (w - (j + 1)) by omega)
  obtain ⟨hlower, hupper⟩ := hnearest.window
  have htarget : tokens.sum * (j + 1) < 2 ^ 128 := by
    unfold maxSafeJsonInteger at hsum
    calc tokens.sum * (j + 1) ≤ 9007199254740991 * (j + 1) := Nat.mul_le_mul_right _ hsum
      _ < 2 ^ 128 := by omega
  refine ⟨best.1, ?_, ?_⟩
  · simp only [pushBoundary, bind_eq_ok, orThrow_eq_ok, checkedAdd_eq_some, checkedSub_eq_some,
      checkedMul_eq_some, Nat.add_sub_cancel, pure_eq_ok]
    exact ⟨previous, hprevious, _, ⟨by omega, rfl⟩, _, ⟨hj.le, rfl⟩, _, ⟨by omega, rfl⟩, _,
      ⟨htarget, rfl⟩, best, hrun, rfl⟩
  · -- everything so far is at most the previous boundary
    have hbefore : ∀ b ∈ boundaries, b ≤ previous := by
      intro b hb
      obtain ⟨i, hi⟩ := List.mem_iff_getElem?.mp hb
      obtain ⟨hilt, rfl⟩ := List.getElem?_eq_some_iff.mp hi
      obtain ⟨-, rfl⟩ := List.getElem?_eq_some_iff.mp hprevious
      rcases Nat.lt_or_ge i j with hij | hij
      · exact (List.pairwise_iff_getElem.mp h.increasing i j hilt hlast hij).le
      · have heq : i = j := by
          have hlen := h.length
          omega
        simp [heq]
    refine ⟨by rw [List.length_append, h.length, List.length_singleton], ?_, ?_, ?_, ?_⟩
    · rw [List.getElem?_append_left (Nat.zero_lt_of_lt hlast)]
      exact h.first
    · rw [List.pairwise_append]
      refine ⟨h.increasing, List.pairwise_singleton _ _, fun b hb c hc => ?_⟩
      obtain rfl := List.mem_singleton.mp hc
      have hle := hbefore b hb
      omega
    · intro b hb
      rcases List.mem_append.mp hb with hb | hb
      · have hle := hbefore b hb
        omega
      · obtain rfl := List.mem_singleton.mp hb
        exact hupper
    · intro k hk hkj
      rcases Nat.lt_or_ge j k with hlt | hle
      · obtain rfl : k = j + 1 := by omega
        refine ⟨previous, best.1, ?_, ?_, hnearest⟩
        · rw [Nat.add_sub_cancel, List.getElem?_append_left hlast]
          exact hprevious
        · rw [List.getElem?_append_right (by rw [h.length])]
          simp [h.length]
      · obtain ⟨previous', b, hprevious', hb, hnear⟩ := h.inner k hk hle
        have hklt : k < boundaries.length := by omega
        refine ⟨previous', b, ?_, ?_, hnear⟩
        · rw [List.getElem?_append_left (by omega)]
          exact hprevious'
        · rw [List.getElem?_append_left hklt]
          exact hb

/-- The loop over the workers, by induction on their number. -/
theorem pushBoundary_run (hw : w < 2 ^ 16) (hsum : tokens.sum ≤ maxSafeJsonInteger)
    (hlength : tokens.length < 2 ^ 64) (hpos : 0 < w) (hle : w ≤ tokens.length) :
    ∃ boundaries, (List.range' 1 (w - 1)).foldlM
        (pushBoundary (prefixSums tokens) tokens.length tokens.sum w) [0] = .ok boundaries ∧
      BalancedUpTo tokens w (w - 1) boundaries := by
  have hrun : ∃ boundaries, (List.range' 1 (w - 1)).foldlM
      (pushBoundary (prefixSums tokens) tokens.length tokens.sum w) [0] = .ok boundaries ∧
        BalancedUpTo tokens w (List.range' 1 (w - 1)).length boundaries := by
    refine foldlM_total (P := fun pre boundaries => BalancedUpTo tokens w pre.length boundaries)
      ⟨rfl, rfl, List.pairwise_singleton _ _, ?_, ?_⟩ ?_
    · intro b hb
      obtain rfl := List.mem_singleton.mp hb
      simpa using hle
    · intro k hk hk'
      simp only [List.length_nil] at hk'
      omega
    · intro pre worker post boundaries hsplit h
      -- the worker at position `pre.length` of `1, 2, …` is the next number
      have hlt : pre.length < w - 1 := by
        have hlen := congrArg List.length hsplit
        rw [List.length_range', List.length_append, List.length_cons] at hlen
        omega
      have hworker : worker = pre.length + 1 := by
        have hget : (List.range' 1 (w - 1))[pre.length]? = some worker := by
          rw [hsplit, List.getElem?_append_right (le_refl _), Nat.sub_self]
          rfl
        rw [List.getElem?_range' hlt] at hget
        have hvalue := Option.some.inj hget
        omega
      subst hworker
      obtain ⟨b, hstep, hnext⟩ := pushBoundary_ok hw hsum hlength (by omega) h
      refine ⟨_, hstep, ?_⟩
      rw [List.length_append, List.length_singleton]
      exact hnext
  rwa [List.length_range'] at hrun

end Boundary

/-! ### The boundaries of a plan -/

/-- **The boundaries are balanced.** The run is not aborted, and the boundaries it
returns are those of the specification. -/
theorem tokenBalancedBoundaries_ok {plan : EmbeddingPlanV2} {workers : U32}
    (hsum : (tokenCounts plan.tasks).sum ≤ maxSafeJsonInteger)
    (hlength : plan.tasks.length < 2 ^ 64) (hpos : 0 < (workers : ℕ))
    (hmax : (workers : ℕ) ≤ 65535) (hle : (workers : ℕ) ≤ plan.tasks.length) :
    ∃ boundaries, tokenBalancedBoundaries plan workers = .ok boundaries ∧
      Balanced (tokenCounts plan.tasks) workers boundaries := by
  have hcount : (tokenCounts plan.tasks).length = plan.tasks.length := List.length_map ..
  have htotal : (tokenCounts plan.tasks).sum < 2 ^ 64 := by
    unfold maxSafeJsonInteger at hsum
    omega
  obtain ⟨boundaries, hrun, hbalanced⟩ := pushBoundary_run (by omega : (workers : ℕ) < 2 ^ 16)
    hsum (hcount ▸ hlength) hpos (hcount ▸ hle)
  rw [hcount] at hrun
  refine ⟨boundaries ++ [plan.tasks.length], ?_, ?_⟩
  · simp only [tokenBalancedBoundaries, pushPrefix_run htotal, ok_bind, getLast?_prefixSums,
      Option.bind_some, bind_eq_ok, exists_unit, orThrow_eq_ok, toWidth_eq_some,
      requireSafeU64_eq_ok, pure_eq_ok]
    exact ⟨⟨_, htotal⟩, rfl, hsum, boundaries, hrun, rfl⟩
  · have hlen : boundaries.length = workers := by
      rw [hbalanced.length]
      omega
    refine ⟨by rw [List.length_append, hlen, List.length_singleton], ?_, ?_, ?_, ?_⟩
    · rw [List.getElem?_append_left (by omega)]
      exact hbalanced.first
    · rw [List.getElem?_append_right hlen.le, hlen, Nat.sub_self, hcount]
      rfl
    · -- the last inner boundary leaves a task to the last worker
      rw [List.pairwise_append]
      refine ⟨hbalanced.increasing, List.pairwise_singleton _ _, fun b hb c hc => ?_⟩
      obtain rfl := List.mem_singleton.mp hc
      have hroom := hbalanced.room b hb
      omega
    · intro k hk hkw
      obtain ⟨previous, b, hprevious, hb, hnear⟩ := hbalanced.inner k hk (by omega)
      refine ⟨previous, b, ?_, ?_, hnear⟩
      · rw [List.getElem?_append_left (by omega)]
        exact hprevious
      · rw [List.getElem?_append_left (by omega)]
        exact hb

end LivefireRag.Cloud
