import Mathlib.Algebra.Order.Field.Rat
import Mathlib.Analysis.SpecialFunctions.Log.Base
import LivefireRag.Evaluation.Invariance
import LivefireRag.Evaluation.Scores

/-!
# The metrics are sound

What `evaluateRankings` reports for the queries it evaluates, from any accepted ranking: the
metrics lie between 0 and 1, nDCG is 1 for the ideal gains alone, repeating an evidence
group below itself gains nothing, putting the larger of two neighbouring gains first loses
nothing, and the order in which the rows are written does not matter.
-/

namespace LivefireRag.Evaluation

open Fallible

variable {𝕜 : Type} [Field 𝕜] [LinearOrder 𝕜]
variable {documents : Dict String Judgment} {py : Python 𝕜}

/-! ### Triplets -/

omit [Field 𝕜] in
/-- No more groups have a preference than are relevant. -/
theorem length_positives_le (preferences : Dict String 𝕜) :
    (positiveGroupPreferences documents preferences).values.length ≤
      (relevantGroups documents).size := by
  have hsub : (positiveGroupPreferences documents preferences).keys ⊆
      (relevantGroups documents).keys := by
    intro groupId hgroup
    rw [positiveGroupPreferences, mem_keys_groupMaxima, List.mem_map] at hgroup
    obtain ⟨row, hrow, rfl⟩ := hgroup
    obtain ⟨entry, hentry, heq⟩ := List.mem_filterMap.mp hrow
    obtain ⟨preference, -, rfl⟩ := Option.map_eq_some_iff.mp heq
    rw [relevantGroups, mem_keys_groupMaxima, List.map_map]
    exact List.mem_map_of_mem hentry
  have hkeys : (positiveGroupPreferences documents preferences).keys.Nodup :=
    (positiveGroupPreferences documents preferences).nodup
  have hle := (List.subperm_of_subset hkeys hsub).length_le
  rw [Dict.keys, Dict.keys, List.length_map, List.length_map] at hle
  rw [Dict.values, List.length_map]
  exact hle

omit [LinearOrder 𝕜] in
/-- No more triplets are observed than are declared. -/
theorem length_margins_le {relevantCount : ℕ} {positives : List 𝕜}
    (hpositives : positives.length ≤ relevantCount) (preferences : Dict String 𝕜)
    (pairs : List NegativePair) {triplets : Triplets 𝕜}
    (h : triplets.margins.length ≤ triplets.declared) :
    (pairs.foldl (addTriplets relevantCount preferences positives) triplets).margins.length ≤
      (pairs.foldl (addTriplets relevantCount preferences positives) triplets).declared := by
  induction pairs generalizing triplets with
  | nil => exact h
  | cons pair pairs ih =>
    refine ih ?_
    unfold addTriplets
    dsimp only
    split
    · exact h.trans (Nat.le_add_right _ _)
    · split
      · next hpair =>
        rw [hpair, Option.isSome_some, if_pos rfl]
        split
        · rw [List.length_append, List.length_singleton]
          exact Nat.add_le_add_right h 1
        · exact h.trans (Nat.le_add_right _ 1)
      · next hpair =>
        rw [hpair, List.length_append, List.length_map]
        exact Nat.add_le_add h hpositives

/-- The metrics of a query lie in their bounds. -/
structure Bounded (metrics : Metrics 𝕜) : Prop where
  ndcg : 0 ≤ metrics.ndcg ∧ metrics.ndcg ≤ 1
  recallAtK : 0 ≤ metrics.recallAtK ∧ metrics.recallAtK ≤ 1
  mrr : 0 ≤ metrics.mrr ∧ metrics.mrr ≤ 1
  triplets : ∀ accuracy, metrics.tripletAccuracy = some accuracy →
    ∃ coverage, metrics.tripletCoverage = some coverage ∧ accuracy ≤ coverage ∧ coverage ≤ 1

theorem triplets_bounded [IsStrictOrderedRing 𝕜] {triplets : Triplets 𝕜}
    (h : triplets.margins.length ≤ triplets.declared) {accuracy : 𝕜}
    (haccuracy : triplets.accuracy = some accuracy) :
    ∃ coverage, triplets.coverage = some coverage ∧ accuracy ≤ coverage ∧ coverage ≤ 1 := by
  unfold Triplets.accuracy at haccuracy
  unfold Triplets.coverage
  split at haccuracy
  · cases haccuracy
  · next hdeclared =>
    obtain rfl := Option.some.inj haccuracy
    refine ⟨_, if_neg hdeclared, ?_, ?_⟩
    · exact div_le_div_of_nonneg_right (Nat.cast_le.mpr List.countP_le_length) (Nat.cast_nonneg _)
    · exact div_le_one_of_le₀ (Nat.cast_le.mpr h) (Nat.cast_nonneg _)

/-! ### The metrics of a query -/

/-- The first rank of a document, in a ranking that counts its ranks. -/
theorem find?_ranked {entries : List (ℤ × String)} {start : ℕ}
    (h : entries.map Prod.fst = (List.range' start entries.length).map fun (i : ℕ) => (i + 1 : ℤ))
    (p : String → Bool) : (entries.find? fun entry => p entry.2).map Prod.fst =
      ((entries.map Prod.snd).findIdx? p).map fun i => ((start + i : ℕ) + 1 : ℤ) := by
  induction entries generalizing start with
  | nil => rfl
  | cons entry entries ih =>
    rw [List.length_cons, List.range'_succ, List.map_cons, List.map_cons, List.cons.injEq] at h
    rw [List.map_cons, List.findIdx?_cons]
    rw [List.find?_cons]
    cases hp : p entry.2 with
    | true =>
      rw [if_pos rfl, Option.map_some, Option.map_some, h.1]
      rfl
    | false =>
      rw [if_neg Bool.false_ne_true, ih h.2, Option.map_map]
      congr 1
      funext i
      show ((start + 1 + i : ℕ) + 1 : ℤ) = ((start + (i + 1) : ℕ) + 1 : ℤ)
      omega

theorem findIdx?_congr {α : Type} {p q : α → Bool} {xs : List α} (h : ∀ x ∈ xs, p x = q x) :
    xs.findIdx? p = xs.findIdx? q := by
  induction xs with
  | nil => rfl
  | cons x xs ih =>
    obtain ⟨hx, hxs⟩ := List.forall_mem_cons.mp h
    rw [List.findIdx?_cons, List.findIdx?_cons, hx, ih hxs]

/-- What the metrics of a query say of its ranked documents. -/
structure Scored (discount : ℕ → 𝕜) (k : ℕ) (documents : Dict String Judgment)
    (ids : List String) (metrics : Metrics 𝕜) : Prop where
  judged : Judged documents (ids.take k)
  ndcg : metrics.ndcg = ndcgOf discount k documents ids
  recallAtK : metrics.recallAtK = recallOf 𝕜 k documents ids
  mrr : metrics.mrr = mrrOf 𝕜 k documents ids
  triplets : ∃ triplets : Triplets 𝕜, triplets.margins.length ≤ triplets.declared ∧
    metrics.tripletAccuracy = triplets.accuracy ∧ metrics.tripletCoverage = triplets.coverage

/-- The first `k` rows with their ranks and documents. -/
def topEntries (py : Python 𝕜) (k : ℕ) (ranked : List RankedRow) : List (ℤ × String) :=
  (ranked.take k).map fun entry => (entry.rank, documentText py entry.row)

/-- The documents of a ranking. -/
def rankedIds (py : Python 𝕜) (ranked : List RankedRow) : List String :=
  ranked.map fun entry => documentText py entry.row

/-- A ranking whose rows have documents and count their ranks. -/
structure IsRanking (py : Python 𝕜) (ranked : List RankedRow) : Prop where
  documents : ∀ entry ∈ ranked, rankingDocumentId py entry.row = .ok (documentText py entry.row)
  ranks : ranked.map RankedRow.rank = countedRanks ranked.length

omit [Field 𝕜] [LinearOrder 𝕜] in
theorem snd_topEntries (k : ℕ) (ranked : List RankedRow) :
    (topEntries py k ranked).map Prod.snd = (rankedIds py ranked).take k := by
  rw [topEntries, rankedIds, List.map_map, ← List.map_take]
  rfl

omit [Field 𝕜] [LinearOrder 𝕜] in
theorem IsRanking.fst_topEntries {ranked : List RankedRow} (h : IsRanking py ranked) (k : ℕ) :
    (topEntries py k ranked).map Prod.fst =
      (List.range' 0 (topEntries py k ranked).length).map fun (i : ℕ) => (i + 1 : ℤ) := by
  have hranks : (topEntries py k ranked).map Prod.fst = (countedRanks ranked.length).take k := by
    rw [← h.ranks, topEntries, List.map_map, ← List.map_take]
    rfl
  rw [hranks, countedRanks, ← List.map_take, List.take_range, topEntries, List.length_map,
    List.length_take, List.range_eq_range']

/-- **What the metrics of a query are**, for a ranking and consistent judgments. -/
theorem scoreQuery_eq_ok {discount : ℕ → 𝕜} {k : ℕ} {queryId : String}
    {negatives : List NegativePair} {ranked : List RankedRow} {metrics : Metrics 𝕜}
    (hconsistent : Consistent documents) (hranked : IsRanking py ranked)
    (hideal : dcg discount (idealGrades documents) k ≠ 0)
    (h : scoreQuery py discount k queryId documents negatives ranked = .ok metrics) :
    Scored discount k documents (rankedIds py ranked) metrics := by
  have htop : ((ranked.take k).mapM fun row => do
      let documentId ← rankingDocumentId py row.row
      return (row.rank, documentId)) = .ok (topEntries py k ranked) :=
    mapM_eq_map fun row hrow => by
      rw [hranked.documents row (List.mem_of_mem_take hrow)]
      rfl
  rw [scoreQuery, htop, ok_bind] at h
  simp only [bind_eq_ok, throwIf_eq_ok, exists_unit, pure_eq_ok, not_not, snd_topEntries] at h
  obtain ⟨hjudged, hfirst, preferences, -, rfl⟩ := h
  have hjudged : Judged documents ((rankedIds py ranked).take k) := by
    intro id hid
    have hsome := List.filter_eq_nil_iff.mp hjudged id hid
    rw [decide_eq_true_eq] at hsome
    exact Option.ne_none_iff_exists'.mp hsome
  obtain ⟨-, hretrieved⟩ := retrieved_foldl_scanTop hconsistent hjudged
  refine ⟨hjudged, ?_, ?_, ?_, _, length_margins_le (length_positives_le preferences) preferences
    negatives (le_refl 0), rfl, rfl⟩
  · show (if _ then _ else _) = _
    rw [if_pos hideal, grades_foldl_scanTop, countedGrades_take, ndcgOf]
    congr 1
    rw [dcg, List.nil_append, List.take_take, Nat.min_self]
    rfl
  · show ((_ : ℕ) : 𝕜) / _ = _
    rw [hretrieved]
    rfl
  · have hrelevant : ((rankedIds py ranked).take k).findIdx? (fun id =>
        ((relevantGroups documents).get? (groupOf documents id)).isSome) =
        firstRelevant documents ((rankedIds py ranked).take k) := by
      refine findIdx?_congr fun id hid => ?_
      obtain ⟨judgment, hjudgment⟩ := hjudged id hid
      rw [Bool.eq_iff_iff, decide_eq_true_eq, mem_relevantGroups hconsistent hjudgment]
    have hfind := find?_ranked (hranked.fst_topEntries k) fun id =>
      ((relevantGroups documents).get? (groupOf documents id)).isSome
    rw [snd_topEntries, hrelevant] at hfind
    dsimp only
    rw [hfind, mrrOf]
    cases firstRelevant documents ((rankedIds py ranked).take k) with
    | none => rfl
    | some i =>
      show 1 / (((0 + i : ℕ) + 1 : ℤ) : 𝕜) = 1 / ((i + 1 : ℕ) : 𝕜)
      rw [Nat.zero_add]
      push_cast
      rfl

/-! ### The rows of the report -/

/-- A query is evaluated when it is eligible and has relevant documents and a ranking. -/
theorem evaluateQuery_eq_ok {discount : ℕ → 𝕜} {k : ℕ} {table : JudgmentTable}
    {negatives : Dict String (List NegativePair)} {rankings : Dict String (List RankedRow)}
    {query : Row} {row : QueryResult 𝕜} {tally : QueryTally}
    (h : evaluateQuery py discount k table negatives rankings query = .ok (row, tally)) :
    readQueryId py query = .ok row.queryId ∧
    (row.status = .evaluated ↔ queryIsEligible query = .ok true ∧
      (relevantGroups (table.documents row.queryId)).size ≠ 0 ∧
      (rankings.get? row.queryId).getD [] ≠ []) ∧
    (row.status = .evaluated → ∃ metrics, row.metrics = some metrics ∧
      scoreQuery py discount k row.queryId (table.documents row.queryId)
        ((negatives.get? row.queryId).getD []) ((rankings.get? row.queryId).getD []) =
          .ok metrics) := by
  rw [evaluateQuery] at h
  obtain ⟨queryId, hquery, h⟩ := bind_eq_ok.mp h
  obtain ⟨eligible, heligible, h⟩ := bind_eq_ok.mp h
  dsimp only at h
  rw [heligible]
  split at h
  · next hnot =>
    obtain ⟨rfl, rfl⟩ := Prod.mk.inj (pure_eq_ok.mp h)
    exact ⟨hquery, iff_of_false (fun heq => by cases heq) fun hall => hnot (Except.ok.inj hall.1),
      fun heq => by cases heq⟩
  · next hyes =>
    split at h
    · next hnone =>
      obtain ⟨rfl, rfl⟩ := Prod.mk.inj (pure_eq_ok.mp h)
      exact ⟨hquery, iff_of_false (fun heq => by cases heq) fun hall => hall.2.1 hnone,
        fun heq => by cases heq⟩
    · next hsome =>
      split at h
      · next hnil =>
        obtain ⟨rfl, rfl⟩ := Prod.mk.inj (pure_eq_ok.mp h)
        exact ⟨hquery, iff_of_false (fun heq => by cases heq) fun hall => hall.2.2 hnil,
          fun heq => by cases heq⟩
      · next hne =>
        obtain ⟨metrics, hmetrics, h⟩ := bind_eq_ok.mp h
        obtain ⟨rfl, rfl⟩ := Prod.mk.inj (pure_eq_ok.mp h)
        exact ⟨hquery, iff_of_true rfl ⟨congrArg Except.ok (not_not.mp hyes), hsome, hne⟩,
          fun _ => ⟨metrics, rfl, hmetrics⟩⟩

/-- The judgments of a query. -/
def judgedDocuments (py : Python 𝕜) (queries qrels : List Row) (queryId : String) :
    Dict String Judgment :=
  match queries.mapM (readQueryId py) >>= fun queryIds => judge py queryIds qrels with
  | .ok table => table.documents queryId
  | .error _ => Dict.empty

/-- What a report is computed from. -/
theorem evaluateRankings_eq_ok {discount : ℕ → 𝕜} {k : ℕ}
    {queries qrels hardNegatives rankings : List Row} {inventory : Option (List Row)}
    {report : EvaluationReport 𝕜} (haccepted : AcceptedRankings py rankings)
    (h : evaluateRankings py discount queries qrels hardNegatives rankings k inventory =
      .ok report) :
    ∃ table negatives sorted results,
      (∀ queryId, Consistent (table.documents queryId)) ∧
      (∀ queryId, judgedDocuments py queries qrels queryId = table.documents queryId) ∧
      (∀ queryId, (sorted.get? queryId).getD [] = rankedRows py rankings queryId) ∧
      queries.mapM (evaluateQuery py discount k table negatives sorted) = .ok results ∧
      report.perQuery = results.map Prod.fst := by
  rw [evaluateRankings] at h
  obtain ⟨queryIds, hqueryIds, h⟩ := bind_eq_ok.mp h
  obtain ⟨table, htable, h⟩ := bind_eq_ok.mp h
  obtain ⟨negatives, -, h⟩ := bind_eq_ok.mp h
  obtain ⟨ranked, hranked, h⟩ := bind_eq_ok.mp h
  obtain ⟨sorted, hsorted, hlookup⟩ := haccepted.sortRankings_eq_ok
  obtain rfl := Except.ok.inj (hsorted.symm.trans hranked)
  obtain ⟨eligibleQueries, -, h⟩ := bind_eq_ok.mp h
  obtain ⟨results, hresults, h⟩ := bind_eq_ok.mp h
  obtain ⟨⟨all, eligible⟩, -, h⟩ := bind_eq_ok.mp h
  obtain ⟨eligibleIds, -, h⟩ := bind_eq_ok.mp h
  obtain ⟨-, -, -, hconsistent⟩ := judge_eq_ok.mp htable
  refine ⟨table, negatives, sorted, results, hconsistent, fun queryId => ?_, hlookup, hresults, ?_⟩
  · rw [judgedDocuments, hqueryIds, ok_bind, htable]
  · rw [← pure_eq_ok.mp h]

theorem getElem?_of_mapM {α β ε : Type} {f : α → Except ε β} {xs : List α} {ys : List β}
    (h : xs.mapM f = .ok ys) (i : ℕ) :
    (xs[i]? = none ∧ ys[i]? = none) ∨ ∃ x y, xs[i]? = some x ∧ ys[i]? = some y ∧ f x = .ok y := by
  rw [mapM_eq_ok] at h
  induction h generalizing i with
  | nil => exact .inl ⟨rfl, rfl⟩
  | @cons x y xs ys hxy _ ih =>
    cases i with
    | zero => exact .inr ⟨x, y, rfl, rfl, hxy⟩
    | succ i => exact ih i

section Report

variable [IsStrictOrderedRing 𝕜] {discount : ℕ → 𝕜} {k : ℕ}
variable {queries qrels hardNegatives rankings rankings' : List Row} {inventory : Option (List Row)}
variable {report report' : EvaluationReport 𝕜} {row : QueryResult 𝕜} {i : ℕ}

/-- An evaluated query, and what its metrics are of. -/
structure EvaluatedQuery (discount : ℕ → 𝕜) (k : ℕ) (documents : Dict String Judgment)
    (ids : List String) (row : QueryResult 𝕜) (metrics : Metrics 𝕜) : Prop where
  metrics_eq : row.metrics = some metrics
  consistent : Consistent documents
  ideal_pos : 0 < dcg discount (idealGrades documents) k
  scored : Scored discount k documents ids metrics

omit [LinearOrder 𝕜] [IsStrictOrderedRing 𝕜] in
theorem AcceptedRankings.isRanking (h : AcceptedRankings py rankings) (queryId : String) :
    IsRanking py (rankedRows py rankings queryId) := by
  refine ⟨fun entry hentry => h.documents entry.row ?_, (h.sortRows_eq queryId).2⟩
  exact List.mem_of_mem_filter (h.mem_rankedRows hentry)

/-- **What the report says of an evaluated query.** -/
theorem evaluatedQuery_of_report (hdiscount : RankDiscounts discount) (hk : 1 ≤ k)
    (haccepted : AcceptedRankings py rankings)
    (h : evaluateRankings py discount queries qrels hardNegatives rankings k inventory =
      .ok report) (hrow : report.perQuery[i]? = some row) (hstatus : row.status = .evaluated) :
    ∃ metrics, EvaluatedQuery discount k (judgedDocuments py queries qrels row.queryId)
      (rankedDocuments py rankings row.queryId) row metrics := by
  obtain ⟨table, negatives, sorted, results, hconsistent, hjudged, hlookup, hresults, hreport⟩ :=
    evaluateRankings_eq_ok haccepted h
  rw [hreport, List.getElem?_map] at hrow
  obtain ⟨⟨_, tally⟩, hresult, rfl⟩ := Option.map_eq_some_iff.mp hrow
  obtain ⟨-, hnone⟩ | ⟨query, result, -, hget, hevaluate⟩ := getElem?_of_mapM hresults i
  · rw [hnone] at hresult
    cases hresult
  · obtain rfl := Option.some.inj (hget.symm.trans hresult)
    obtain ⟨-, hiff, hmetrics⟩ := evaluateQuery_eq_ok hevaluate
    obtain ⟨-, hrelevant, -⟩ := hiff.mp hstatus
    obtain ⟨metrics, hsome, hscore⟩ := hmetrics hstatus
    have hpos := idealDcg_pos hdiscount hk (hconsistent _) hrelevant
    rw [hlookup] at hscore
    refine ⟨metrics, hsome, ?_, ?_, ?_⟩
    · rw [hjudged]
      exact hconsistent _
    · rw [hjudged]
      exact hpos
    · rw [hjudged]
      exact scoreQuery_eq_ok (hconsistent _) (haccepted.isRanking _) hpos.ne' hscore

omit [IsStrictOrderedRing 𝕜] in
/-- A query that is evaluated on one ranking is evaluated on every other that ranks documents
for it. -/
theorem evaluated_of_report (haccepted : AcceptedRankings py rankings)
    (haccepted' : AcceptedRankings py rankings')
    (h : evaluateRankings py discount queries qrels hardNegatives rankings k inventory =
      .ok report)
    (h' : evaluateRankings py discount queries qrels hardNegatives rankings' k inventory =
      .ok report') (hrow : report.perQuery[i]? = some row) (hstatus : row.status = .evaluated)
    (hne : rankedDocuments py rankings' row.queryId ≠ []) :
    ∃ row', report'.perQuery[i]? = some row' ∧ row'.queryId = row.queryId ∧
      row'.status = .evaluated := by
  obtain ⟨table, negatives, sorted, results, -, hjudged, hlookup, hresults, hreport⟩ :=
    evaluateRankings_eq_ok haccepted h
  obtain ⟨table', negatives', sorted', results', -, hjudged', hlookup', hresults', hreport'⟩ :=
    evaluateRankings_eq_ok haccepted' h'
  rw [hreport, List.getElem?_map] at hrow
  obtain ⟨⟨_, tally⟩, hresult, rfl⟩ := Option.map_eq_some_iff.mp hrow
  obtain ⟨-, hnone⟩ | ⟨query, result, hquery, hget, hevaluate⟩ := getElem?_of_mapM hresults i
  · rw [hnone] at hresult
    cases hresult
  obtain rfl := Option.some.inj (hget.symm.trans hresult)
  obtain ⟨hnone, -⟩ | ⟨query', ⟨row', tally'⟩, hquery', hget', hevaluate'⟩ :=
    getElem?_of_mapM hresults' i
  · rw [hquery] at hnone
    cases hnone
  obtain rfl := Option.some.inj (hquery.symm.trans hquery')
  obtain ⟨hid, hiff, -⟩ := evaluateQuery_eq_ok hevaluate
  obtain ⟨hid', hiff', -⟩ := evaluateQuery_eq_ok hevaluate'
  have hsame : row'.queryId = _ := Except.ok.inj (hid'.symm.trans hid)
  obtain ⟨heligible, hrelevant, -⟩ := hiff.mp hstatus
  refine ⟨row', by rw [hreport', List.getElem?_map, hget']; rfl, hsame, hiff'.mpr
    ⟨heligible, ?_, ?_⟩⟩
  · rw [hsame, ← hjudged', hjudged]
    exact hrelevant
  · rw [hsame, hlookup']
    intro hnil
    exact hne (by rw [rankedDocuments, hnil]; rfl)

theorem EvaluatedQuery.bounded {documents : Dict String Judgment} {ids : List String}
    {metrics : Metrics 𝕜} (hdiscount : RankDiscounts discount)
    (h : EvaluatedQuery discount k documents ids row metrics) : Bounded metrics := by
  obtain ⟨-, hconsistent, hpos, hscored⟩ := h
  obtain ⟨triplets, hle, haccuracy, hcoverage⟩ := hscored.triplets
  refine ⟨?_, ?_, ?_, fun accuracy h => ?_⟩
  · rw [hscored.ndcg]
    exact ⟨div_nonneg (dcg_nonneg hdiscount _ k) hpos.le,
      ndcgOf_le_one hdiscount hconsistent hpos ids⟩
  · rw [hscored.recallAtK]
    exact ⟨div_nonneg (Nat.cast_nonneg _) (Nat.cast_nonneg _),
      recallOf_le_one hconsistent hscored.judged⟩
  · rw [hscored.mrr]
    exact reciprocalRank_mem_Icc _
  · rw [hcoverage]
    exact triplets_bounded hle (haccuracy ▸ h)

/-- The query at a place of one report is evaluated in another one too, and their metrics
compare. -/
def Compares (report' : EvaluationReport 𝕜) (i : ℕ) (row : QueryResult 𝕜)
    (compare : Metrics 𝕜 → Metrics 𝕜 → Prop) : Prop :=
  ∃ row' metrics metrics', report'.perQuery[i]? = some row' ∧ row'.queryId = row.queryId ∧
    row'.status = .evaluated ∧ row.metrics = some metrics ∧ row'.metrics = some metrics' ∧
    compare metrics metrics'

/-- What holds of the metrics of every evaluated query, whichever accepted rankings they are
compared with. -/
structure SoundMetrics (py : Python 𝕜) (discount : ℕ → 𝕜) (k : ℕ)
    (queries qrels hardNegatives rankings : List Row) (inventory : Option (List Row))
    (report : EvaluationReport 𝕜) : Prop where
  bounded : ∀ row ∈ report.perQuery, row.status = .evaluated →
    ∃ metrics, row.metrics = some metrics ∧ Bounded metrics
  ideal : ∀ row ∈ report.perQuery, row.status = .evaluated →
    ∃ metrics, row.metrics = some metrics ∧ (metrics.ndcg = 1 ↔ ∀ i < k,
      (countedGains 𝕜 (judgedDocuments py queries qrels row.queryId)
        (rankedDocuments py rankings row.queryId)).getD i 0 =
      (idealGains 𝕜 (judgedDocuments py queries qrels row.queryId)).getD i 0)
  repeated : ∀ rankings' label known strict contract report' i (row : QueryResult 𝕜)
      pre post id e,
    validateRankings py rankings' label known strict = .ok contract →
    evaluateRankings py discount queries qrels hardNegatives rankings' k inventory = .ok report' →
    report.perQuery[i]? = some row → row.status = .evaluated →
    rankedDocuments py rankings row.queryId = pre ++ post →
    rankedDocuments py rankings' row.queryId = pre ++ id :: post →
    e ∈ pre → groupOf (judgedDocuments py queries qrels row.queryId) e =
      groupOf (judgedDocuments py queries qrels row.queryId) id →
    Compares report' i row fun metrics metrics' => metrics'.ndcg ≤ metrics.ndcg ∧
      metrics'.recallAtK ≤ metrics.recallAtK ∧ metrics'.mrr ≤ metrics.mrr
  swapped : ∀ rankings' label known strict contract report' i (row : QueryResult 𝕜)
      pre post a b,
    validateRankings py rankings' label known strict = .ok contract →
    evaluateRankings py discount queries qrels hardNegatives rankings' k inventory = .ok report' →
    report.perQuery[i]? = some row → row.status = .evaluated →
    rankedDocuments py rankings row.queryId = pre ++ a :: b :: post →
    rankedDocuments py rankings' row.queryId = pre ++ b :: a :: post →
    groupOf (judgedDocuments py queries qrels row.queryId) a ≠
      groupOf (judgedDocuments py queries qrels row.queryId) b →
    (countedGains 𝕜 (judgedDocuments py queries qrels row.queryId)
      (pre ++ a :: b :: post)).getD pre.length 0 ≤
      (countedGains 𝕜 (judgedDocuments py queries qrels row.queryId)
        (pre ++ a :: b :: post)).getD (pre.length + 1) 0 →
    Compares report' i row fun metrics metrics' => metrics.ndcg ≤ metrics'.ndcg
  invariant : ∀ qrels' rankings', qrels.Perm qrels' → rankings.Perm rankings' →
    evaluateRankings py discount queries qrels' hardNegatives rankings' k inventory = .ok report

/-- Reports over two accepted rankings are compared query by query. -/
theorem compares_of_reports (hdiscount : RankDiscounts discount) (hk : 1 ≤ k)
    (haccepted : AcceptedRankings py rankings) (haccepted' : AcceptedRankings py rankings')
    (h : evaluateRankings py discount queries qrels hardNegatives rankings k inventory =
      .ok report)
    (h' : evaluateRankings py discount queries qrels hardNegatives rankings' k inventory =
      .ok report') (hrow : report.perQuery[i]? = some row) (hstatus : row.status = .evaluated)
    {compare : Metrics 𝕜 → Metrics 𝕜 → Prop} {ids ids' : List String}
    (hids : rankedDocuments py rankings row.queryId = ids)
    (hids' : rankedDocuments py rankings' row.queryId = ids') (hne : ids' ≠ [])
    (hcompare : ∀ metrics metrics',
      Consistent (judgedDocuments py queries qrels row.queryId) →
      Scored discount k (judgedDocuments py queries qrels row.queryId) ids metrics →
      Scored discount k (judgedDocuments py queries qrels row.queryId) ids' metrics' →
      compare metrics metrics') : Compares report' i row compare := by
  subst hids hids'
  obtain ⟨row', hrow', hid, hstatus'⟩ :=
    evaluated_of_report haccepted haccepted' h h' hrow hstatus hne
  obtain ⟨metrics, hsome, hconsistent, -, hscored⟩ :=
    evaluatedQuery_of_report hdiscount hk haccepted h hrow hstatus
  obtain ⟨metrics', hsome', -, -, hscored'⟩ :=
    evaluatedQuery_of_report hdiscount hk haccepted' h' hrow' hstatus'
  rw [hid] at hscored'
  exact ⟨row', metrics, metrics', hrow', hid, hstatus', hsome, hsome',
    hcompare metrics metrics' hconsistent hscored hscored'⟩

/-- **The metrics of a benchmark are sound.** -/
theorem benchmark_metrics_sound (py : Python 𝕜) {discount : ℕ → 𝕜}
    (hdiscount : RankDiscounts discount) {k : ℕ} (hk : 1 ≤ k)
    {queries qrels hardNegatives rankings : List Row} {inventory : Option (List Row)}
    (hdistinct : DistinctQrels py qrels) {label : String} {known : Option (List String)}
    {strict : Bool} {contract : ScoreContract}
    (hvalid : validateRankings py rankings label known strict = .ok contract)
    {report : EvaluationReport 𝕜}
    (h : evaluateRankings py discount queries qrels hardNegatives rankings k inventory =
      .ok report) :
    SoundMetrics py discount k queries qrels hardNegatives rankings inventory report := by
  have haccepted := validateRankings_accepted hvalid
  refine ⟨?_, ?_, ?_, ?_, ?_⟩
  · intro row hrow hstatus
    obtain ⟨i, hi⟩ := List.mem_iff_getElem?.mp hrow
    obtain ⟨metrics, hmetrics⟩ := evaluatedQuery_of_report hdiscount hk haccepted h hi hstatus
    exact ⟨metrics, hmetrics.metrics_eq, hmetrics.bounded hdiscount⟩
  · intro row hrow hstatus
    obtain ⟨i, hi⟩ := List.mem_iff_getElem?.mp hrow
    obtain ⟨metrics, hsome, hconsistent, hpos, hscored⟩ :=
      evaluatedQuery_of_report hdiscount hk haccepted h hi hstatus
    refine ⟨metrics, hsome, ?_⟩
    rw [hscored.ndcg]
    exact ndcgOf_eq_one_iff hdiscount hconsistent hpos _
  · intro rankings' label' known' strict' contract' report' i row pre post id e hvalid' h' hrow
      hstatus hids hids' he hgroup
    refine compares_of_reports hdiscount hk haccepted (validateRankings_accepted hvalid') h h' hrow
      hstatus hids hids' (List.append_ne_nil_of_right_ne_nil _ (List.cons_ne_nil _ _)) ?_
    intro metrics metrics' hconsistent hscored hscored'
    refine ⟨?_, ?_, ?_⟩
    · rw [hscored.ndcg, hscored'.ndcg]
      exact ndcgOf_insert_le hdiscount he hgroup
    · rw [hscored.recallAtK, hscored'.recallAtK]
      exact recallOf_insert_le hconsistent he hgroup hscored'.judged
    · rw [hscored.mrr, hscored'.mrr]
      exact mrrOf_insert_le hconsistent he hgroup hscored'.judged
  · intro rankings' label' known' strict' contract' report' i row pre post a b hvalid' h' hrow
      hstatus hids hids' hgroups hgain
    refine compares_of_reports hdiscount hk haccepted (validateRankings_accepted hvalid') h h' hrow
      hstatus hids hids' (List.append_ne_nil_of_right_ne_nil _ (List.cons_ne_nil _ _)) ?_
    intro metrics metrics' _ hscored hscored'
    rw [hscored.ndcg, hscored'.ndcg]
    exact ndcgOf_swap_le hdiscount hgroups hgain
  · intro qrels' rankings' hqrels hrows
    exact evaluateRankings_perm hdistinct haccepted hqrels hrows h

end Report

/-! ### The discounts of the evaluator -/

-- the base of the logarithm
local instance logBase_atLeastTwo : Nat.AtLeastTwo 2 := inferInstance

/-- `1 / math.log2(rank + 1)` -/
noncomputable def log2Discount (rank : ℕ) : ℝ := 1 / Real.logb 2 (rank + 1)

theorem logb_rank_pos (i : ℕ) : 0 < Real.logb 2 ((i + 1 : ℕ) + 1) := by
  refine Real.logb_pos one_lt_two ?_
  exact lt_add_of_pos_left 1 (Nat.cast_pos.mpr (Nat.succ_pos i))

/-- The discounts of the evaluator are of the kind the metrics are sound for. -/
theorem rankDiscounts_log2Discount : RankDiscounts log2Discount := by
  refine ⟨fun i => one_div_pos.mpr (logb_rank_pos i), fun i j hij => ?_⟩
  refine one_div_lt_one_div_of_lt (logb_rank_pos i) (Real.logb_lt_logb one_lt_two ?_ ?_)
  · exact add_pos (Nat.cast_pos.mpr (Nat.succ_pos i)) one_pos
  · exact add_lt_add_left (Nat.cast_lt.mpr (Nat.succ_lt_succ hij)) 1

/-! ### Two queries -/

def samplePython : Python ℚ where
  str := fun value => value.asStr.getD ""
  int := Json.asPyIndex
  float := fun value => value.numericValue.map .finite
  repr := fun text => "'" ++ text ++ "'"

def sampleQuery (queryId : String) : Row :=
  [("eligibility", .string "eligible"), ("fact_id", .string "f"), ("query_id", .string queryId)]

def sampleQrel (queryId documentId groupId : String) (grade : ℕ) : Row :=
  [("document_id", .string documentId), ("evidence_group_id", .string groupId),
    ("query_id", .string queryId), ("relevance", .number (.posInt grade))]

def sampleRanking (queryId documentId : String) : Row :=
  [("document_id", .string documentId), ("query_id", .string queryId),
    ("rank", .number (.posInt 1))]

def sampleQrels : List Row :=
  [sampleQrel "q" "a" "g" 3, sampleQrel "q" "b" "g" 3, sampleQrel "r" "c" "h" 2,
    sampleQrel "r" "n" "i" 0]

def sampleHardNegatives : List Row := [[("document_id", .string "n"), ("query_id", .string "r")]]

def sampleDiscount (rank : ℕ) : ℚ := 1 / (rank + 1)

theorem rankDiscounts_sampleDiscount : RankDiscounts sampleDiscount := by
  have hpos : ∀ i : ℕ, (0 : ℚ) < (i + 1 : ℕ) + 1 := fun i => by positivity
  refine ⟨fun i => one_div_pos.mpr (hpos i), fun i j hij => ?_⟩
  exact one_div_lt_one_div_of_lt (hpos i)
    (add_lt_add_left (Nat.cast_lt.mpr (Nat.succ_lt_succ hij)) 1)

theorem exists_of_isOk {ε α : Type} {x : Except ε α} (h : x.isOk = true) : ∃ a, x = .ok a := by
  cases x with
  | error e => cases h
  | ok a => exact ⟨a, rfl⟩

theorem two_queries_sound : ∃ contract report,
    validateRankings samplePython [sampleRanking "q" "a", sampleRanking "r" "n"] "rankings" none
      false = .ok contract ∧
    evaluateRankings samplePython sampleDiscount [sampleQuery "q", sampleQuery "r"] sampleQrels
      sampleHardNegatives [sampleRanking "q" "a", sampleRanking "r" "n"] 20 none = .ok report ∧
    SoundMetrics samplePython sampleDiscount 20 [sampleQuery "q", sampleQuery "r"] sampleQrels
      sampleHardNegatives [sampleRanking "q" "a", sampleRanking "r" "n"] none report := by
  obtain ⟨contract, hvalid⟩ := exists_of_isOk (x := validateRankings samplePython
    [sampleRanking "q" "a", sampleRanking "r" "n"] "rankings" none false) (by decide +kernel)
  obtain ⟨report, hreport⟩ := exists_of_isOk (x := evaluateRankings samplePython sampleDiscount
    [sampleQuery "q", sampleQuery "r"] sampleQrels sampleHardNegatives
    [sampleRanking "q" "a", sampleRanking "r" "n"] 20 none) (by decide +kernel)
  have hdistinct : DistinctQrels samplePython sampleQrels := by
    unfold DistinctQrels
    decide +kernel
  exact ⟨contract, report, hvalid, hreport, benchmark_metrics_sound samplePython
    rankDiscounts_sampleDiscount (by decide) hdistinct hvalid hreport⟩

end LivefireRag.Evaluation
