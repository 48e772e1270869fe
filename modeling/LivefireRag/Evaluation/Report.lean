import LivefireRag.Evaluation.Metrics

/-!
# The evaluation report

`evaluateRankings` scores every query and averages: over the query surfaces of a fact, over
the facts, and over the facts of a cohort. Excluded queries have no metrics and take no
part.
-/

namespace LivefireRag.Evaluation

open Fallible

section Numbers

variable {𝕜 : Type} [Field 𝕜] [LinearOrder 𝕜]

def mean (values : List 𝕜) : 𝕜 := if values = [] then 0 else values.sum / values.length

def meanOption (values : List 𝕜) : Option 𝕜 := if values = [] then none else some (mean values)

def truthValue (b : Bool) : 𝕜 := if b then 1 else 0

/-! ### Facts -/

/-- A query's row that has metrics. -/
structure ScoredQuery (𝕜 : Type) where
  row : QueryResult 𝕜
  metrics : Metrics 𝕜

def scoredQuery (row : QueryResult 𝕜) : Option (ScoredQuery 𝕜) :=
  row.metrics.map fun metrics => ⟨row, metrics⟩

structure FactResult (𝕜 : Type) where
  factId : String
  domain : Json
  cohort : Json
  resamplingClusterId : Json
  querySurfaces : ℕ
  ndcg : 𝕜
  recallAtK : 𝕜
  mrr : 𝕜
  cohortCovered : Bool
  tripletAccuracy : Option 𝕜
  tripletCoverage : Option 𝕜
  medianMargin : Option 𝕜

/-- The mean over the query surfaces of a fact, of which there is at least one. -/
def factResult (factId : String) (first : ScoredQuery 𝕜) (rows : List (ScoredQuery 𝕜)) :
    FactResult 𝕜 where
  factId := factId
  domain := first.row.domain
  cohort := first.row.cohort
  resamplingClusterId := first.row.resamplingClusterId
  querySurfaces := rows.length
  ndcg := mean (rows.map (·.metrics.ndcg))
  recallAtK := mean (rows.map (·.metrics.recallAtK))
  mrr := mean (rows.map (·.metrics.mrr))
  cohortCovered := rows.all fun row => 0 < row.metrics.recallAtK
  tripletAccuracy := meanOption (rows.filterMap (·.metrics.tripletAccuracy))
  tripletCoverage := meanOption (rows.filterMap (·.metrics.tripletCoverage))
  medianMargin := median (rows.filterMap (·.metrics.medianMargin))

/-- The rows by a key, in the order of the keys. -/
def groupSorted {α : Type} (key : α → String) (rows : List α) : List (String × List α) :=
  Ranking.sortBy Prod.fst (Dict.groupBy key rows).entries

def perFact (perQuery : List (QueryResult 𝕜)) : List (FactResult 𝕜) :=
  (groupSorted (·.row.factId) (perQuery.filterMap scoredQuery)).filterMap fun entry =>
    entry.2.head?.map fun first => factResult entry.1 first entry.2

/-! ### Averages -/

structure MacroResult (𝕜 : Type) where
  ndcg : 𝕜
  recallAtK : 𝕜
  mrr : 𝕜
  cohortCoverage : 𝕜
  tripletAccuracy : Option 𝕜
  tripletCoverage : Option 𝕜
  medianMargin : Option 𝕜

def macroResult (facts : List (FactResult 𝕜)) : MacroResult 𝕜 where
  ndcg := mean (facts.map (·.ndcg))
  recallAtK := mean (facts.map (·.recallAtK))
  mrr := mean (facts.map (·.mrr))
  cohortCoverage := mean (facts.map fun fact => truthValue fact.cohortCovered)
  tripletAccuracy := meanOption (facts.filterMap (·.tripletAccuracy))
  tripletCoverage := meanOption (facts.filterMap (·.tripletCoverage))
  medianMargin := median (facts.filterMap (·.medianMargin))

structure CohortResult (𝕜 : Type) where
  facts : ℕ
  resamplingClusters : ℕ
  inferenceStatus : String
  ndcg : 𝕜
  recallAtK : 𝕜
  cohortCoverage : 𝕜

structure Coverage (𝕜 : Type) where
  factsTotal : ℕ
  queriesTotal : ℕ
  eligibleQuerySurfaces : ℕ
  eligibleFacts : ℕ
  mappedFacts : ℕ
  evaluatedFacts : ℕ
  evaluatedQuerySurfaces : ℕ
  successfulQuerySurfaces : ℕ
  querySurfacesWithDeclaredHardNegatives : ℕ
  eligibleMappingRate : 𝕜
  eligibleEvaluationRate : 𝕜
  eligibleQueryExecutionRate : 𝕜
  hardNegativeDeclarationRate : 𝕜

structure Correctness where
  unresolvedPointers : ℕ
  filterViolations : ℕ

structure EvaluationReport (𝕜 : Type) where
  coverage : Coverage 𝕜
  correctness : Correctness
  macroResult : MacroResult 𝕜
  perCohort : List (String × CohortResult 𝕜)
  perFact : List (FactResult 𝕜)
  perQuery : List (QueryResult 𝕜)

/-- A share of the whole, 0 when there is no whole. -/
def rate (part whole : ℕ) : 𝕜 := if whole = 0 then 0 else (part : 𝕜) / whole

section Reading

variable (py : Python 𝕜)

def cohortResult (facts : List (FactResult 𝕜)) : CohortResult 𝕜 :=
  let clusters := (facts.map fun fact => py.str fact.resamplingClusterId).dedup.length
  { facts := facts.length
    resamplingClusters := clusters
    inferenceStatus := if 2 ≤ clusters then "inferential" else "descriptive"
    ndcg := mean (facts.map (·.ndcg))
    recallAtK := mean (facts.map (·.recallAtK))
    cohortCoverage := mean (facts.map fun fact => truthValue fact.cohortCovered) }

def perCohort (facts : List (FactResult 𝕜)) : List (String × CohortResult 𝕜) :=
  (groupSorted (fun fact => py.str fact.cohort) facts).map fun entry =>
    (entry.1, cohortResult py entry.2)

def eligibleInventory : List String := ["eligible_native", "eligible_external"]

def readFactId (query : Row) : Result String := do
  let queryId ← query.item "query_id"
  return py.str (query.getD "fact_id" queryId)

def readAtomId (atom : Row) : Result String := do
  let value ← atom.item "atom_id"
  return py.str value

/-- The facts in all and the eligible ones, of the inventory or else of the queries. -/
def factIds (queries eligibleQueries : List Row) (inventory : Option (List Row)) :
    Result (List String × List String) := do
  match inventory with
  | none =>
    let all ← queries.mapM (readFactId py)
    let eligible ← eligibleQueries.mapM (readFactId py)
    return (all, eligible)
  | some atoms =>
    let all ← atoms.mapM (readAtomId py)
    let eligible ← atoms.filterM fun atom => memberOf (atom.get "eligibility") eligibleInventory
    let eligibleIds ← eligible.mapM (readAtomId py)
    return (all, eligibleIds)

/-- The ranking rows of each query, in the order of their ranks. -/
def sortRankings (rankings : List Row) : Result (Dict String (List RankedRow)) := do
  let keyed ← rankings.mapM fun row => do
    let queryId ← readQueryId py row
    return (queryId, row)
  let sorted ← (Dict.groupBy Prod.fst keyed).entries.mapM fun entry => do
    let ranked ← sortRows py (entry.2.map Prod.snd)
    return (entry.1, ranked)
  return Dict.ofList sorted

def evaluateRankings (discount : ℕ → 𝕜) (queries qrels hardNegatives rankings : List Row) (k : ℕ)
    (inventory : Option (List Row)) : Result (EvaluationReport 𝕜) := do
  let queryIds ← queries.mapM (readQueryId py)
  let table ← judge py queryIds qrels
  let negatives ← negativePairs py queryIds table hardNegatives
  let ranked ← sortRankings py rankings
  let eligibleQueries ← queries.filterM queryIsEligible
  let results ← queries.mapM (evaluateQuery py discount k table negatives ranked)
  let perQuery := results.map Prod.fst
  let tallies := results.map Prod.snd
  let facts := perFact perQuery
  let (all, eligible) ← factIds py queries eligibleQueries inventory
  let eligibleIds ← eligibleQueries.mapM (readQueryId py)
  let mappedFacts := ((results.filter (·.2.mapped)).map (·.1.factId)).dedup.length
  let evaluatedFacts := ((perQuery.filterMap scoredQuery).map (·.row.factId)).dedup.length
  let evaluated := perQuery.countP (·.status ≠ .excluded)
  let successful := perQuery.countP (·.status = .evaluated)
  let declared := negatives.keys.countP (· ∈ eligibleIds)
  let eligibleFacts := eligible.dedup.length
  return {
    coverage := {
      factsTotal := all.dedup.length
      queriesTotal := queries.length
      eligibleQuerySurfaces := eligibleQueries.length
      eligibleFacts := eligibleFacts
      mappedFacts := mappedFacts
      evaluatedFacts := evaluatedFacts
      evaluatedQuerySurfaces := evaluated
      successfulQuerySurfaces := successful
      querySurfacesWithDeclaredHardNegatives := declared
      eligibleMappingRate := rate mappedFacts eligibleFacts
      eligibleEvaluationRate := rate evaluatedFacts eligibleFacts
      eligibleQueryExecutionRate := rate successful eligibleQueries.length
      hardNegativeDeclarationRate := rate declared eligibleQueries.length }
    correctness := {
      unresolvedPointers := (tallies.map QueryTally.pointerViolations).sum
      filterViolations := (tallies.map QueryTally.filterViolations).sum }
    macroResult := macroResult facts
    perCohort := perCohort py facts
    perFact := facts
    perQuery := perQuery }

end Reading

end Numbers

end LivefireRag.Evaluation
