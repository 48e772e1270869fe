import Mathlib.Data.Finset.Card
import LivefireRag.Evaluation.Rows

/-!
# Judgments

For each query the adjudicated qrels grade documents, from 0 to 3, and say which of them
hold the same evidence. The documents of one evidence group have one grade. Hard negatives
are judged documents that are not relevant, each against one relevant document or against
all of them.
-/

namespace LivefireRag.Evaluation

open Fallible

def relevantGrade : ℕ := 2

/-- The grade of a document and its evidence group. -/
structure Judgment where
  grade : ℕ
  groupId : String
  deriving DecidableEq

/-- The judged documents of each query: `qrels_by_query` and `qrel_groups_by_query`, which
have the same keys. -/
abbrev JudgmentTable := Dict String (Dict String Judgment)

/-- The judged documents of a query. -/
def JudgmentTable.documents (table : JudgmentTable) (queryId : String) : Dict String Judgment :=
  (table.get? queryId).getD Dict.empty

/-- The grade of a document, 0 when it is not judged. -/
def gradeOf (documents : Dict String Judgment) (documentId : String) : ℕ :=
  ((documents.get? documentId).map Judgment.grade).getD 0

/-- The evidence group of a document, which is alone in its own when it is not judged. -/
def groupOf (documents : Dict String Judgment) (documentId : String) : String :=
  ((documents.get? documentId).map Judgment.groupId).getD documentId

/-- A qrel that counts. -/
structure Qrel where
  queryId : String
  documentId : String
  judgment : Judgment

section Reading

variable {𝕜 : Type} [Field 𝕜] [LinearOrder 𝕜] (py : Python 𝕜)

/-- Whether a row of qrels or of hard negatives counts. -/
def rowCounts (row : Row) (eligibilities : List String) : Result Bool := do
  if (row.getD "status" (.string "adjudicated")).pyEq (.string "adjudicated") then
    memberOf (row.getD "eligibility" (.string "eligible")) eligibilities
  else
    return false

def readQueryId (row : Row) : Result String := do
  let value ← row.item "query_id"
  return py.str value

/-- The qrel of a row, unless the row does not count. -/
def readQrel (queryIds : List String) (row : Row) : Result (Option Qrel) := do
  if ¬ (← rowCounts row ["eligible", "duplicate_projection"]) then
    return none
  else
    let queryId ← readQueryId py row
    throwIf (queryId ∉ queryIds) (.evaluation ("qrel references unknown query " ++ queryId))
    let documentId ← rowDocumentId py row ["document_id", "command_id"]
    let grade ← orThrow
      (py.int (row.getD "relevance" (row.getD "relevance_grade" (.number (.negInt 0))))) .raised
    throwIf (¬ (0 ≤ grade ∧ grade ≤ 3))
      (.evaluation ("qrel relevance must be in [0,3]: " ++ py.strRow row))
    let groupId := py.str (row.getD "evidence_group_id"
      (row.getD "duplicate_group_sha256" (.string documentId)))
    return some ⟨queryId, documentId, ⟨grade.toNat, groupId⟩⟩

def JudgmentTable.add (table : JudgmentTable) (qrel : Qrel) : JudgmentTable :=
  table.update qrel.queryId fun documents =>
    (documents.getD Dict.empty).set qrel.documentId qrel.judgment

def scanQrel (queryIds : List String) (table : JudgmentTable) (row : Row) :
    Result JudgmentTable := do
  match ← readQrel py queryIds row with
  | some qrel => return table.add qrel
  | none => return table

/-- Every judgment of a table, under its query. -/
def judgments (table : JudgmentTable) : List (String × Judgment) :=
  table.entries.flatMap fun query => query.2.entries.map fun entry => (query.1, entry.2)

def addGrade (groups : Dict (String × String) (Finset ℕ)) (entry : String × Judgment) :
    Dict (String × String) (Finset ℕ) :=
  groups.update (entry.1, entry.2.groupId) fun grades => insert entry.2.grade (grades.getD ∅)

/-- The grades of each evidence group of each query. -/
def groupGrades (table : JudgmentTable) : Dict (String × String) (Finset ℕ) :=
  (judgments table).foldl addGrade Dict.empty

def inconsistentGroups (table : JudgmentTable) : List (String × String) :=
  ((groupGrades table).entries.filter (1 < ·.2.card)).map Prod.fst

def judge (queryIds : List String) (qrels : List Row) : Result JudgmentTable := do
  let table ← qrels.foldlM (scanQrel py queryIds) Dict.empty
  throwIf (inconsistentGroups table ≠ []) (.evaluation
    ("qrels assign inconsistent grades within evidence groups: [" ++
      ", ".intercalate ((inconsistentGroups table).map py.reprPair) ++ "]"))
  return table

/-! ### Hard negatives -/

/-- A negative document, and the relevant document it stands against unless that is each of
them: `(positive_id, document_id)`. -/
abbrev NegativePair := Option String × String

def readHardNegative (queryIds : List String) (table : JudgmentTable) (row : Row) :
    Result (Option (String × NegativePair)) := do
  if ¬ (← rowCounts row ["eligible"]) then
    return none
  else
    let queryId ← readQueryId py row
    throwIf (queryId ∉ queryIds)
      (.evaluation ("hard negative references unknown query " ++ queryId))
    let documentId ← rowDocumentId py row ["document_id", "negative_command_id"]
    let documents := table.documents queryId
    throwIf (documents.get? documentId = none) (.evaluation
      ("hard negative must have an adjudicated qrel for " ++ queryId ++ ": " ++ documentId))
    throwIf (relevantGrade ≤ gradeOf documents documentId)
      (.evaluation ("hard negative is also relevant for " ++ queryId ++ ": " ++ documentId))
    let positiveId := if (row.get "positive_command_id").truthy then
      some (py.str (row.get "positive_command_id")) else none
    throwIf (∃ id ∈ positiveId, gradeOf documents id < relevantGrade)
      (.evaluation ("hard negative positive_command_id is not a relevant qrel for " ++ queryId ++
        ": " ++ positiveId.getD ""))
    return some (queryId, (positiveId, documentId))

def scanHardNegative (queryIds : List String) (table : JudgmentTable)
    (pairs : Dict String (List NegativePair)) (row : Row) :
    Result (Dict String (List NegativePair)) := do
  match ← readHardNegative py queryIds table row with
  | some (queryId, pair) =>
    return pairs.update queryId fun pairs => pairs.getD [] ++ [pair]
  | none => return pairs

def negativePairs (queryIds : List String) (table : JudgmentTable) (hardNegatives : List Row) :
    Result (Dict String (List NegativePair)) :=
  hardNegatives.foldlM (scanHardNegative py queryIds table) Dict.empty

end Reading

end LivefireRag.Evaluation
