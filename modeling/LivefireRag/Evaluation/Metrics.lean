import Mathlib.Algebra.Order.BigOperators.Group.List
import LivefireRag.Evaluation.Judgments

/-!
# The metrics of a query

A query's ranking is scored against its judgments: the discounted gain of the first `k`
documents over that of an ideal ranking, the share of the relevant evidence groups among
them, the reciprocal of the first relevant rank, and how the hard negatives stand to the
relevant documents. Only the first document of an evidence group counts.
-/

namespace LivefireRag.Evaluation

open Fallible

/-! ### Evidence groups -/

/-- The greatest value of each group. -/
def groupMaxima {ν : Type} [Max ν] (rows : List (String × ν)) : Dict String ν :=
  rows.foldl (fun groups row => groups.update row.1 fun value =>
    match value with
    | some value => max row.2 value
    | none => row.2) Dict.empty

/-- The judged documents that are relevant. -/
def relevantDocuments (documents : Dict String Judgment) : List (String × Judgment) :=
  documents.entries.filter fun entry => relevantGrade ≤ entry.2.grade

/-- The relevant evidence groups with their grades. -/
def relevantGroups (documents : Dict String Judgment) : Dict String ℕ :=
  groupMaxima ((relevantDocuments documents).map fun entry => (entry.2.groupId, entry.2.grade))

/-- The evidence groups with a grade above 0. -/
def gradedGroups (documents : Dict String Judgment) : Dict String ℕ :=
  groupMaxima ((documents.entries.filter fun entry => 0 < entry.2.grade).map fun entry =>
    (entry.2.groupId, entry.2.grade))

/-- The grades of an ideal ranking. -/
def idealGrades (documents : Dict String Judgment) : List ℕ :=
  (gradedGroups documents).values.mergeSort fun a b => b ≤ a

/-! ### The first documents -/

/-- What is kept while the first documents are read. -/
structure TopScan where
  seenGroups : Finset String
  grades : List ℕ
  retrievedGroups : Finset String

def scanTop (documents : Dict String Judgment) (scan : TopScan) (documentId : String) : TopScan :=
  let grade := gradeOf documents documentId
  let groupId := groupOf documents documentId
  if groupId ∈ scan.seenGroups then { scan with grades := scan.grades ++ [0] }
  else
    { seenGroups := insert groupId scan.seenGroups
      grades := scan.grades ++ [grade]
      retrievedGroups :=
        if relevantGrade ≤ grade then insert groupId scan.retrievedGroups
        else scan.retrievedGroups }

section Numbers

variable {𝕜 : Type} [Field 𝕜] [LinearOrder 𝕜]

-- the base of the gains
local instance gainBase_atLeastTwo : Nat.AtLeastTwo 2 := inferInstance

def gain (grade : ℕ) : 𝕜 := 2 ^ grade - 1

/-- The gains of the first `k` grades, each times the discount of its rank. -/
def dcg (discount : ℕ → 𝕜) (grades : List ℕ) (k : ℕ) : 𝕜 :=
  (((grades.take k).zipIdx 1).map fun entry => gain entry.1 * discount entry.2).sum

/-- The middle of the values in order, or the mean of the two in the middle. -/
def median (values : List 𝕜) : Option 𝕜 :=
  let ordered := values.mergeSort fun a b => a ≤ b
  if values = [] then none
  else if ordered.length % 2 = 1 then ordered[ordered.length / 2]?
  else some ((ordered.getD (ordered.length / 2 - 1) 0 + ordered.getD (ordered.length / 2) 0) / 2)

/-! ### Hard negatives -/

/-- The triplets of a query: how many are declared, and the margins of those whose documents
both have a score. Each margin is an observed triplet. -/
structure Triplets (𝕜 : Type) where
  declared : ℕ
  margins : List 𝕜

/-- The share of the declared triplets whose relevant document is preferred. -/
def Triplets.accuracy (triplets : Triplets 𝕜) : Option 𝕜 :=
  if triplets.declared = 0 then none
  else some ((triplets.margins.countP (0 < ·) : 𝕜) / triplets.declared)

/-- The share of the declared triplets that are observed. -/
def Triplets.coverage (triplets : Triplets 𝕜) : Option 𝕜 :=
  if triplets.declared = 0 then none
  else some ((triplets.margins.length : 𝕜) / triplets.declared)

def addTriplets (relevantCount : ℕ) (preferences : Dict String 𝕜) (positives : List 𝕜)
    (triplets : Triplets 𝕜) (pair : NegativePair) : Triplets 𝕜 :=
  let declared := triplets.declared + if pair.1.isSome then 1 else relevantCount
  match preferences.get? pair.2 with
  | none => { triplets with declared }
  | some negative =>
    match pair.1 with
    | some positiveId =>
      match preferences.get? positiveId with
      | some positive => ⟨declared, triplets.margins ++ [positive - negative]⟩
      | none => { triplets with declared }
    | none => ⟨declared, triplets.margins ++ positives.map (· - negative)⟩

/-- The best preference of each relevant group that has one. -/
def positiveGroupPreferences (documents : Dict String Judgment) (preferences : Dict String 𝕜) :
    Dict String 𝕜 :=
  groupMaxima ((relevantDocuments documents).filterMap fun entry =>
    (preferences.get? entry.1).map fun preference => (entry.2.groupId, preference))

/-! ### A query -/

structure Metrics (𝕜 : Type) where
  ndcg : 𝕜
  recallAtK : 𝕜
  mrr : 𝕜
  firstRelevantRank : Option ℤ
  hardNegativesInTopK : ℕ
  bestHardNegativeRank : Option ℤ
  tripletAccuracy : Option 𝕜
  tripletCoverage : Option 𝕜
  medianMargin : Option 𝕜

/-- The metrics of a query without relevant documents or without a ranking. -/
def Metrics.failed : Metrics 𝕜 := ⟨0, 0, 0, none, 0, none, none, some 0, none⟩

section Reading

variable (py : Python 𝕜)

/-- The preference of a row under its document, where the row has one. `validateRankings`
has refused scores that are not finite. -/
def readPreference (ranked : RankedRow) : Result (Option (String × 𝕜)) := do
  match ← rankingPreference py ranked.row with
  | none => return none
  | some preference =>
    let documentId ← rankingDocumentId py ranked.row
    let value ← orThrow preference.toFinite .raised
    return some (documentId, value)

def readPreferences (ranked : List RankedRow) : Result (Dict String 𝕜) := do
  let preferences ← ranked.mapM (readPreference py)
  return Dict.ofList preferences.reduceOption

/-- The metrics of a query with relevant documents and a ranking. -/
def scoreQuery (discount : ℕ → 𝕜) (k : ℕ) (queryId : String) (documents : Dict String Judgment)
    (negatives : List NegativePair) (ranked : List RankedRow) : Result (Metrics 𝕜) := do
  let relevant := relevantGroups documents
  let top ← (ranked.take k).mapM fun row => do
    let documentId ← rankingDocumentId py row.row
    return (row.rank, documentId)
  let unjudged := (top.map Prod.snd).filter fun id => documents.get? id = none
  throwIf (unjudged ≠ []) (.evaluation (s!"query {queryId} has unjudged top-{k} documents: " ++
    py.reprList unjudged))
  let scan := (top.map Prod.snd).foldl (scanTop documents) ⟨∅, [], ∅⟩
  let idealDcg := dcg discount (idealGrades documents) k
  let ndcg := if idealDcg ≠ 0 then dcg discount scan.grades k / idealDcg else 0
  let recallAtK := (scan.retrievedGroups.card : 𝕜) / relevant.size
  let firstRank :=
    (top.find? fun entry => (relevant.get? (groupOf documents entry.2)).isSome).map Prod.fst
  throwIf (firstRank = some 0) .raised
  let mrr := match firstRank with
    | some rank => 1 / (rank : 𝕜)
    | none => 0
  let preferences ← readPreferences py ranked
  let positives := (positiveGroupPreferences documents preferences).values
  let triplets := negatives.foldl (addTriplets relevant.size preferences positives) ⟨0, []⟩
  let hardNegativeRanks :=
    (top.filter fun entry => entry.2 ∈ negatives.map Prod.snd).map Prod.fst
  return {
    ndcg, recallAtK, mrr
    firstRelevantRank := firstRank
    hardNegativesInTopK := hardNegativeRanks.length
    bestHardNegativeRank := hardNegativeRanks.min?
    tripletAccuracy := triplets.accuracy
    tripletCoverage := triplets.coverage
    medianMargin := median triplets.margins }

/-! ### The rows of the report -/

inductive QueryStatus where
  | excluded
  | failed (reason : String)
  | evaluated
  deriving DecidableEq

/-- The row of a query. An excluded query has no metrics. -/
structure QueryResult (𝕜 : Type) where
  queryId : String
  factId : String
  domain : Json
  cohort : Json
  resamplingClusterId : Json
  eligibility : String
  status : QueryStatus
  relevantDocuments : ℕ
  metrics : Option (Metrics 𝕜)

/-- What a query adds to the counts of the report. -/
structure QueryTally where
  mapped : Bool
  pointerViolations : ℕ
  filterViolations : ℕ

def eligibleKinds : List String :=
  ["direct_single", "direct_multi", "retrieve_then_compute", "exact_metadata", "eligible",
    "eligible_native", "eligible_external"]

def queryIsEligible (query : Row) : Result Bool := do
  if ← memberOf (query.get "eligibility") eligibleKinds then
    return (query.getD "status" (.string "active")).pyEq (.string "active")
  else
    return false

/-- The rows whose field is not set. -/
def violations (field : String) (ranked : List RankedRow) : ℕ :=
  ranked.countP fun entry => ¬ (entry.row.getD field (.bool false)).truthy

def evaluateQuery (discount : ℕ → 𝕜) (k : ℕ) (table : JudgmentTable)
    (negatives : Dict String (List NegativePair)) (rankings : Dict String (List RankedRow))
    (query : Row) : Result (QueryResult 𝕜 × QueryTally) := do
  let queryId ← readQueryId py query
  let factId := py.str (query.getD "fact_id" (.string queryId))
  let eligibility := py.str (query.getD "eligibility" (.string "needs_review"))
  let documents := table.documents queryId
  let relevant := relevantGroups documents
  let eligible ← queryIsEligible query
  let ranked := (rankings.get? queryId).getD []
  let tally : QueryTally := {
    mapped := eligible ∧ relevant.size ≠ 0
    pointerViolations := violations "pointer_resolved" ranked
    filterViolations := violations "filter_compliant" ranked }
  let result : QueryResult 𝕜 := {
    queryId, factId
    domain := query.get "domain"
    cohort := query.get "cohort"
    resamplingClusterId :=
      query.getD "resampling_cluster_id" (query.getD "incident_id" (.string factId))
    eligibility
    status := .excluded
    relevantDocuments := relevant.size
    metrics := none }
  if ¬ eligible then
    return (result, tally)
  else if relevant.size = 0 then
    return ({ result with status := .failed "missing_relevant_qrels", metrics := some .failed },
      tally)
  else if ranked = [] then
    return ({ result with status := .failed "missing_ranking", metrics := some .failed }, tally)
  else
    let metrics ← scoreQuery py discount k queryId documents
      ((negatives.get? queryId).getD []) ranked
    return ({ result with status := .evaluated, metrics := some metrics }, tally)

end Reading

end Numbers

end LivefireRag.Evaluation
