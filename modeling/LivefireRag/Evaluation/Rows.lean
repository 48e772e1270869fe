import Mathlib.Algebra.Order.Field.Basic
import LivefireRag.Lib.Dict
import LivefireRag.Lib.Fallible
import LivefireRag.Lib.PyJson
import LivefireRag.Lib.Ranking

/-!
# Ranking rows

The evaluator reads its inputs as rows of JSON, one object a line. A ranking row names its
query and its document, has a rank, and may have a distance or a score of its own.
`validateRankings` accepts the rows of one system under one score contract, whose documents
are distinct for each query and whose ranks count each query's rows from 1 on.
-/

namespace LivefireRag.Evaluation

open Fallible

/-- The tool refuses its input, or the interpreter raises another exception. -/
inductive EvaluationError where
  | evaluation (text : String)
  | raised
  deriving DecidableEq

abbrev Result := Except EvaluationError

/-! ### Python values -/

/-- A `float` with exact finite values. -/
inductive PyFloat (𝕜 : Type) where
  | finite (x : 𝕜)
  | infinite (positive : Bool)
  | nan
  deriving DecidableEq

/-- What the interpreter makes of a JSON value as a text, an integer and a number, and how
it writes a text between quotes. An infinite number or none at all is no finite one. -/
structure Python (𝕜 : Type) where
  str : Json → String
  int : Json → Option ℤ
  float : Json → Option (PyFloat 𝕜)
  repr : String → String

section Float

variable {𝕜 : Type} [Field 𝕜] [LinearOrder 𝕜]

def PyFloat.isFinite : PyFloat 𝕜 → Bool
  | .finite _ => true
  | _ => false

def PyFloat.toFinite : PyFloat 𝕜 → Option 𝕜
  | .finite x => some x
  | _ => none

def PyFloat.lt : PyFloat 𝕜 → PyFloat 𝕜 → Bool
  | .finite x, .finite y => x < y
  | .finite _, .infinite positive => positive
  | .infinite positive, .finite _ => !positive
  | .infinite a, .infinite b => !a && b
  | _, _ => false

def PyFloat.eq : PyFloat 𝕜 → PyFloat 𝕜 → Bool
  | .finite x, .finite y => x = y
  | .infinite a, .infinite b => a = b
  | _, _ => false

def PyFloat.neg : PyFloat 𝕜 → PyFloat 𝕜
  | .finite x => .finite (-x)
  | .infinite positive => .infinite (!positive)
  | .nan => .nan

/-- The number divided by one that is positive. -/
def PyFloat.div (x : PyFloat 𝕜) (y : 𝕜) : PyFloat 𝕜 :=
  match x with
  | .finite x => .finite (x / y)
  | other => other

/-- `math.isclose(a, b, abs_tol=0.5e-6)` -/
def PyFloat.isClose : PyFloat 𝕜 → PyFloat 𝕜 → Bool
  | .finite a, .finite b => |a - b| ≤ max (max |a| |b| / 1000000000) (1 / 2000000)
  | a, b => a.eq b

end Float

/-! ### Rows -/

/-- The members of an object. -/
abbrev Row := List (String × Json)

/-- `row[name]` -/
def Row.item (row : Row) (name : String) : Result Json := orThrow (Json.field? row name) .raised

/-- `row.get(name, default)` -/
def Row.getD (row : Row) (name : String) (default : Json) : Json :=
  (Json.field? row name).getD default

/-- `row.get(name)` -/
def Row.get (row : Row) (name : String) : Json := row.getD name .null

/-- A key of a set: a list or an object is none. -/
def hashable (value : Json) : Result Json :=
  match value with
  | .array _ => .error .raised
  | .object _ => .error .raised
  | value => .ok value

/-- `value in texts`, the texts being a set. -/
def memberOf (value : Json) (texts : List String) : Result Bool := do
  let key ← hashable value
  return texts.any fun text => key.pyEq (.string text)

section Reading

variable {𝕜 : Type} [Field 𝕜] [LinearOrder 𝕜] (py : Python 𝕜)

/-- A list of texts as the interpreter writes it. -/
def Python.reprList (texts : List String) : String :=
  "[" ++ ", ".intercalate (texts.map py.repr) ++ "]"

/-- A pair of texts as the interpreter writes it. -/
def Python.reprPair (pair : String × String) : String :=
  "(" ++ py.repr pair.1 ++ ", " ++ py.repr pair.2 ++ ")"

def Python.strRow (row : Row) : String := py.str (.object row)

def rowDocumentId (row : Row) (names : List String) : Result String :=
  match (names.map row.get).find? (· ≠ .null) with
  | some value => .ok (py.str value)
  | none => .error (.evaluation
      ("missing document identifier (" ++ ", ".intercalate names ++ "): " ++ py.strRow row))

def rankingDocumentId (row : Row) : Result String :=
  rowDocumentId py row ["document_id", "command_id"]

def requireUniqueDocument (label : String) (documentFields : List String)
    (seen : List (String × String)) (row : Row) : Result (List (String × String)) := do
  throwIf (row.get "query_id" = .null)
    (.evaluation (label ++ ": missing query_id: " ++ py.strRow row))
  let documentId ← rowDocumentId py row documentFields
  let key := (py.str (row.get "query_id"), documentId)
  throwIf (key ∈ seen) (.evaluation (label ++ ": duplicate key " ++ py.reprPair key))
  return key :: seen

def requireUniqueDocuments (rows : List Row) (label : String) (documentFields : List String) :
    Result Unit := do
  let _ ← rows.foldlM (requireUniqueDocument py label documentFields) []
  return ()

/-! ### Scores -/

/-- `float(value)` -/
def Python.number (value : Json) : Result (PyFloat 𝕜) := orThrow (py.float value) .raised

def rankingDistance (row : Row) : Result (Option (PyFloat 𝕜)) := do
  if row.get "distance" ≠ .null then
    let distance ← py.number (row.get "distance")
    return some distance
  else if row.get "distance_millionths" ≠ .null then
    let distance ← py.number (row.get "distance_millionths")
    return some (distance.div 1000000)
  else
    return none

/-- The kind of a row's score and the direction in which it is better. -/
def rankingScoreContract (row : Row) : Result (String × String) := do
  if row.get "score_kind" ≠ .null then
    return (py.str (row.get "score_kind"), py.str (row.getD "score_direction" (.string "")))
  else
    let distance ← rankingDistance py row
    if distance.isSome then
      return ("cosine_distance", "lower_is_better")
    else if row.get "score" ≠ .null then
      return ("native_score", py.str (row.getD "score_direction" (.string "")))
    else
      return ("rank_only", "lower_rank_is_better")

def rankingScore (row : Row) : Result (Option (PyFloat 𝕜)) := do
  let distance ← rankingDistance py row
  if distance.isSome then
    return distance
  else if row.get "score" ≠ .null then
    let score ← py.number (row.get "score")
    return some score
  else
    return none

def rankingPreference (row : Row) : Result (Option (PyFloat 𝕜)) := do
  match ← rankingScore py row with
  | none => return none
  | some value =>
    let contract ← rankingScoreContract py row
    return some (if contract.2 = "lower_is_better" then value.neg else value)

/-! ### The check of a ranking -/

def allowedScoreKinds : List String :=
  ["cosine_distance", "bm25", "exact_field_score", "reranker_score", "native_similarity",
    "native_score", "rank_only"]

def normativeScoreKinds : List String :=
  ["cosine_distance", "bm25", "exact_field_score", "reranker_score", "native_similarity"]

def scoreDirections : List String :=
  ["lower_is_better", "higher_is_better", "lower_rank_is_better"]

/-- The fields of a normative row, in the order of their names. -/
def requiredFields : List String :=
  ["command_id", "filter_compliant", "pointer_resolved", "query_id", "rank", "schema_version",
    "score_direction", "score_kind", "system_id"]

def requireNonEmptyString (label : String) (row : Row) (field : String) : Result Unit :=
  throwIf ((row.get field).asStr = none ∨ row.get field = .string "")
    (.evaluation (label ++ ": " ++ field ++ " must be a non-empty string: " ++ py.strRow row))

def requireBoolean (label : String) (row : Row) (field : String) : Result Unit :=
  throwIf ((row.get field).asBool = none)
    (.evaluation (label ++ ": " ++ field ++ " must be a boolean: " ++ py.strRow row))

/-- The further checks of a row of the normative schema. -/
def validateStrict (label : String) (row : Row) (distance : Option (PyFloat 𝕜))
    (contract : String × String) : Result Unit := do
  throwIf (contract.1 ∉ normativeScoreKinds)
    (.evaluation (label ++ ": non-normative score kind: " ++ contract.1))
  let missing := requiredFields.filter (· ∉ row.map Prod.fst)
  throwIf (missing ≠ []) (.evaluation
    (label ++ ": missing normative fields " ++ py.reprList missing ++ ": " ++ py.strRow row))
  throwIf (¬ (row.get "schema_version").pyEq (.string "livefire.rag.evidence-ranking-row/1"))
    (.evaluation
      (label ++ ": unsupported schema_version: " ++ py.str (row.get "schema_version")))
  ["system_id", "query_id", "command_id", "score_kind", "score_direction"].forM
    (requireNonEmptyString py label row)
  ["pointer_resolved", "filter_compliant"].forM (requireBoolean py label row)
  throwIf (row.get "distance_millionths" ≠ .null ∧ (row.get "distance_millionths").asPyInt = none)
    (.evaluation (label ++ ": distance_millionths must be an integer: " ++ py.strRow row))
  throwIf (row.get "score" ≠ .null ∧ ¬ (row.get "score").isNumber)
    (.evaluation (label ++ ": score must be numeric: " ++ py.strRow row))
  throwIf (contract.1 = "cosine_distance" ∧ distance = none)
    (.evaluation (label ++ ": cosine_distance requires distance_millionths"))
  throwIf (contract.1 ≠ "cosine_distance" ∧ row.get "score" = .null)
    (.evaluation (label ++ ": native score contract requires score"))
  throwIf (distance ≠ none ∧ row.get "score" ≠ .null)
    (.evaluation (label ++ ": a ranking row cannot mix distance and native score"))

def rankingQueryId (row : Row) : String := py.str (row.getD "query_id" (.string ""))

/-- A distance written twice is written the same. -/
def validateDistanceAliases (label : String) (row : Row) : Result Unit := do
  if row.get "distance" ≠ .null ∧ row.get "distance_millionths" ≠ .null then
    let millionths ← py.number (row.get "distance_millionths")
    let distance ← py.number (row.get "distance")
    throwIf (¬ distance.isClose (millionths.div 1000000))
      (.evaluation (label ++ ": conflicting distance aliases: " ++ py.strRow row))

-- the numeral of the bound
local instance two_atLeastTwo : Nat.AtLeastTwo 2 := inferInstance

def validateScore (label : String) (strictSchema : Bool) (row : Row) : Result Unit := do
  let distance ← rankingDistance py row
  throwIf (∃ d ∈ distance, ¬ d.isFinite)
    (.evaluation (label ++ ": distance must be finite: " ++ py.strRow row))
  throwIf (∃ d ∈ distance, ¬ ∃ x ∈ d.toFinite, 0 ≤ x ∧ x ≤ 2)
    (.evaluation (label ++ ": cosine distance must be in [0,2]: " ++ py.strRow row))
  let value ← rankingScore py row
  throwIf (∃ v ∈ value, ¬ v.isFinite)
    (.evaluation (label ++ ": score must be finite: " ++ py.strRow row))
  let contract ← rankingScoreContract py row
  throwIf (contract.1 ∉ allowedScoreKinds)
    (.evaluation (label ++ ": unsupported score kind: " ++ py.strRow row))
  throwIf (contract.2 ∉ scoreDirections)
    (.evaluation (label ++ ": invalid score direction: " ++ py.strRow row))
  throwIf (contract.1 = "cosine_distance" ∧ contract.2 ≠ "lower_is_better")
    (.evaluation (label ++ ": cosine distance must use lower_is_better"))
  if strictSchema then validateStrict py label row distance contract

def validateRankingRow (label : String) (knownQueryIds : Option (List String))
    (strictSchema : Bool) (row : Row) : Result Unit := do
  throwIf (∃ ids ∈ knownQueryIds, rankingQueryId py row ∉ ids)
    (.evaluation (label ++ ": ranking references unknown query " ++ rankingQueryId py row))
  throwIf (row.get "document_id" ≠ .null ∧ row.get "command_id" ≠ .null ∧
      py.str (row.get "document_id") ≠ py.str (row.get "command_id"))
    (.evaluation (label ++ ": conflicting document_id and command_id: " ++ py.strRow row))
  validateDistanceAliases py label row
  throwIf (¬ ∃ rank ∈ (row.get "rank").asPyIndex, 1 ≤ rank)
    (.evaluation (label ++ ": rank must be a positive integer: " ++ py.strRow row))
  validateScore py label strictSchema row

/-- A row under its rank, which is `int(row["rank"])`. -/
structure RankedRow where
  rank : ℤ
  row : Row

def rankedRow (row : Row) : Result RankedRow := do
  let value ← row.item "rank"
  let rank ← orThrow (py.int value) .raised
  return ⟨rank, row⟩

/-- The rows in the order of their ranks. -/
def sortRows (rows : List Row) : Result (List RankedRow) := do
  let ranked ← rows.mapM (rankedRow py)
  return Ranking.sortBy RankedRow.rank ranked

/-- Neighbours in a ranking: the scores follow the ranks, and equal scores the documents. -/
def validateNeighbours (label queryId : String) (neighbours : RankedRow × RankedRow) :
    Result Unit := do
  let previous := neighbours.1.row
  let current := neighbours.2.row
  match ← rankingScore py previous, ← rankingScore py current with
  | some previousScore, some currentScore =>
    let contract ← rankingScoreContract py previous
    let wronglyOrdered := if contract.2 = "lower_is_better" then currentScore.lt previousScore
      else previousScore.lt currentScore
    throwIf wronglyOrdered
      (.evaluation (label ++ ": scores are inconsistent with ranks for " ++ queryId))
    if previousScore.eq currentScore then
      let previousId ← rankingDocumentId py previous
      let currentId ← rankingDocumentId py current
      throwIf (currentId < previousId) (.evaluation
        (label ++ ": equal scores must use command-id ascending tie breaking for " ++ queryId))
  | _, _ => return ()

def validateQueryRows (label : String) (entry : String × List Row) : Result Unit := do
  let (queryId, queryRows) := entry
  let ordered ← sortRows py queryRows
  throwIf (ordered.map RankedRow.rank ≠ (List.range ordered.length).map fun (i : ℕ) => (i + 1 : ℤ))
    (.evaluation (label ++ ": ranks for " ++ queryId ++ " must be contiguous from 1"))
  (ordered.zip ordered.tail).forM (validateNeighbours py label queryId)

structure ScoreContract where
  scoreKind : String
  scoreDirection : String
  deriving DecidableEq

def validateRankings (rows : List Row) (label : String) (knownQueryIds : Option (List String))
    (strictSchema : Bool) : Result ScoreContract := do
  requireUniqueDocuments py rows label ["document_id", "command_id"]
  rows.forM (validateRankingRow py label knownQueryIds strictSchema)
  let systemIds := (rows.filter (·.get "system_id" ≠ .null)).map (py.str <| ·.get "system_id")
  let contracts ← rows.mapM (rankingScoreContract py)
  throwIf (1 < systemIds.dedup.length)
    (.evaluation (label ++ ": one ranking file must contain exactly one system_id"))
  throwIf (1 < contracts.dedup.length)
    (.evaluation (label ++ ": one ranking file must contain exactly one score contract"))
  (Dict.groupBy (rankingQueryId py) rows).entries.forM (validateQueryRows py label)
  let contract := contracts.head?.getD ("rank_only", "lower_rank_is_better")
  return ⟨contract.1, contract.2⟩

end Reading

end LivefireRag.Evaluation
