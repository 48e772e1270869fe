import LivefireRag.Evaluation.Judged

/-!
# The order of the rows

The evaluation reads the judged documents of a query as a dictionary whose order is that of
the qrel rows. Nothing it computes depends on the order: groups and their values are the
same (`relevantGroups_congr`, `idealGrades_congr`), and the margins of the triplets are the
same up to order, which neither their number nor their median sees.
-/

namespace LivefireRag.Evaluation

open Fallible

variable {documents documents' : Dict String Judgment}

/-! ### Groups -/

section Groups

variable (h : documents.entries.Perm documents'.entries)
include h

theorem gradeOf_congr : gradeOf documents = gradeOf documents' := by
  funext id
  rw [gradeOf, gradeOf, Dict.get?_eq_of_perm h]

theorem groupOf_congr : groupOf documents = groupOf documents' := by
  funext id
  rw [groupOf, groupOf, Dict.get?_eq_of_perm h]

theorem scanTop_congr : scanTop documents = scanTop documents' := by
  funext scan id
  rw [scanTop, scanTop, gradeOf_congr h, groupOf_congr h]

theorem relevantDocuments_perm :
    (relevantDocuments documents).Perm (relevantDocuments documents') := h.filter _

theorem relevantGroups_congr (groupId : String) :
    (relevantGroups documents).get? groupId = (relevantGroups documents').get? groupId :=
  get?_groupMaxima_perm ((relevantDocuments_perm h).map _) groupId

theorem size_relevantGroups_congr :
    (relevantGroups documents).size = (relevantGroups documents').size :=
  (Dict.perm_of_get? (relevantGroups_congr h)).length_eq

theorem gradedGroups_congr (groupId : String) :
    (gradedGroups documents).get? groupId = (gradedGroups documents').get? groupId :=
  get?_groupMaxima_perm ((h.filter _).map _) groupId

end Groups

theorem mergeSort_perm_eq {α : Type} [LinearOrder α] {xs ys : List α} {le : α → α → Bool}
    (htrans : ∀ a b c, le a b = true → le b c = true → le a c = true)
    (htotal : ∀ a b, (le a b || le b a) = true)
    (hantisymm : ∀ a b, le a b = true → le b a = true → a = b) (h : xs.Perm ys) :
    xs.mergeSort le = ys.mergeSort le := by
  refine List.Perm.eq_of_pairwise (fun a b _ _ => hantisymm a b)
    (List.pairwise_mergeSort htrans htotal xs) (List.pairwise_mergeSort htrans htotal ys) ?_
  exact (List.mergeSort_perm xs le).trans (h.trans (List.mergeSort_perm ys le).symm)

theorem idealGrades_congr (h : documents.entries.Perm documents'.entries) :
    idealGrades documents = idealGrades documents' := by
  refine mergeSort_perm_eq ?_ ?_ ?_ ((Dict.perm_of_get? (gradedGroups_congr h)).map Prod.snd)
  · intro a b c hab hbc
    simp only [decide_eq_true_eq] at *
    omega
  · intro a b
    simp only [Bool.or_eq_true, decide_eq_true_eq]
    omega
  · intro a b hab hba
    simp only [decide_eq_true_eq] at *
    omega

/-! ### Triplets -/

section Triplets

variable {𝕜 : Type} [Field 𝕜] [LinearOrder 𝕜]

theorem median_perm {xs ys : List 𝕜} (h : xs.Perm ys) : median xs = median ys := by
  have hsorted : (xs.mergeSort fun a b => a ≤ b) = ys.mergeSort fun a b => a ≤ b := by
    refine mergeSort_perm_eq ?_ ?_ ?_ h
    · intro a b c hab hbc
      simp only [decide_eq_true_eq] at *
      exact hab.trans hbc
    · intro a b
      simp only [Bool.or_eq_true, decide_eq_true_eq]
      exact le_total a b
    · intro a b hab hba
      simp only [decide_eq_true_eq] at *
      exact le_antisymm hab hba
  have hnil : xs = [] ↔ ys = [] := by
    rw [← List.length_eq_zero_iff, h.length_eq, List.length_eq_zero_iff]
  simp only [median, hsorted, hnil]

/-- Triplets that are declared alike, with the same margins up to order. -/
def Triplets.Alike (a b : Triplets 𝕜) : Prop := a.declared = b.declared ∧ a.margins.Perm b.margins

omit [LinearOrder 𝕜] in
theorem Triplets.Alike.add {a b : Triplets 𝕜} (h : a.Alike b) {positives positives' : List 𝕜}
    (hpositives : positives.Perm positives') (relevantCount : ℕ) (preferences : Dict String 𝕜)
    (pair : NegativePair) : (addTriplets relevantCount preferences positives a pair).Alike
      (addTriplets relevantCount preferences positives' b pair) := by
  obtain ⟨hdeclared, hmargins⟩ := h
  have hsum : a.declared + (if pair.1.isSome then 1 else relevantCount) =
      b.declared + if pair.1.isSome then 1 else relevantCount := by rw [hdeclared]
  unfold addTriplets
  dsimp only
  split
  · exact ⟨hsum, hmargins⟩
  · split
    · split
      · exact ⟨hsum, hmargins.append_right _⟩
      · exact ⟨hsum, hmargins⟩
    · exact ⟨hsum, hmargins.append (hpositives.map _)⟩

omit [LinearOrder 𝕜] in
theorem addTriplets_foldl_alike {positives positives' : List 𝕜}
    (hpositives : positives.Perm positives') (relevantCount : ℕ) (preferences : Dict String 𝕜)
    (pairs : List NegativePair) {a b : Triplets 𝕜} (h : a.Alike b) :
    (pairs.foldl (addTriplets relevantCount preferences positives) a).Alike
      (pairs.foldl (addTriplets relevantCount preferences positives') b) := by
  induction pairs generalizing a b with
  | nil => exact h
  | cons pair pairs ih => exact ih (h.add hpositives relevantCount preferences pair)

theorem Triplets.Alike.accuracy_eq {a b : Triplets 𝕜} (h : a.Alike b) :
    a.accuracy = b.accuracy := by
  rw [accuracy, accuracy, h.1, h.2.countP_eq]

omit [LinearOrder 𝕜] in
theorem Triplets.Alike.coverage_eq {a b : Triplets 𝕜} (h : a.Alike b) :
    a.coverage = b.coverage := by
  rw [coverage, coverage, h.1, h.2.length_eq]

omit [Field 𝕜] in
theorem positiveGroupPreferences_perm (h : documents.entries.Perm documents'.entries)
    (preferences : Dict String 𝕜) : (positiveGroupPreferences documents preferences).values.Perm
      (positiveGroupPreferences documents' preferences).values := by
  have hget := get?_groupMaxima_perm ((relevantDocuments_perm h).filterMap fun entry =>
    (preferences.get? entry.1).map fun preference => (entry.2.groupId, preference))
  exact (Dict.perm_of_get? hget).map Prod.snd

/-! ### Queries -/

variable {py : Python 𝕜} {discount : ℕ → 𝕜} {k : ℕ}

/-- **The metrics of a query do not depend on the order of its judgments.** -/
theorem scoreQuery_congr (h : documents.entries.Perm documents'.entries) (queryId : String)
    (negatives : List NegativePair) (ranked : List RankedRow) :
    scoreQuery py discount k queryId documents negatives ranked =
      scoreQuery py discount k queryId documents' negatives ranked := by
  have htriplets : ∀ preferences : Dict String 𝕜,
      (negatives.foldl (addTriplets (relevantGroups documents').size preferences
        (positiveGroupPreferences documents preferences).values) ⟨0, []⟩).Alike
      (negatives.foldl (addTriplets (relevantGroups documents').size preferences
        (positiveGroupPreferences documents' preferences).values) ⟨0, []⟩) := fun preferences =>
    addTriplets_foldl_alike (positiveGroupPreferences_perm h preferences) _ preferences negatives
      ⟨rfl, List.Perm.refl _⟩
  simp only [scoreQuery, Dict.get?_eq_of_perm h, scanTop_congr h, idealGrades_congr h,
    relevantGroups_congr h, groupOf_congr h, size_relevantGroups_congr h]
  refine bind_congr fun top => bind_congr fun _ => bind_congr fun _ => bind_congr fun
    preferences => ?_
  rw [(htriplets preferences).accuracy_eq, (htriplets preferences).coverage_eq,
    median_perm (htriplets preferences).2]

/-! ### The report -/

variable {table table' : JudgmentTable}

theorem evaluateQuery_congr (h : JudgedAlike table table')
    (negatives : Dict String (List NegativePair)) (rankings : Dict String (List RankedRow))
    (query : Row) :
    evaluateQuery py discount k table negatives rankings query =
      evaluateQuery py discount k table' negatives rankings query := by
  unfold evaluateQuery
  refine bind_congr fun queryId => ?_
  simp only [size_relevantGroups_congr (h queryId), scoreQuery_congr (h queryId)]

omit [Field 𝕜] [LinearOrder 𝕜] in
theorem negativePairs_congr (h : JudgedAlike table table') (queryIds : List String)
    (hardNegatives : List Row) :
    negativePairs py queryIds table hardNegatives =
      negativePairs py queryIds table' hardNegatives := by
  have hread : readHardNegative py queryIds table = readHardNegative py queryIds table' := by
    funext row
    have hget : ∀ queryId id, (table.documents queryId).get? id =
        (table'.documents queryId).get? id := fun queryId => Dict.get?_eq_of_perm (h queryId)
    have hgrade : ∀ queryId, gradeOf (table.documents queryId) =
        gradeOf (table'.documents queryId) := fun queryId => gradeOf_congr (h queryId)
    simp only [readHardNegative, hget, hgrade]
  rw [negativePairs, negativePairs]
  congr 1
  funext pairs row
  rw [scanHardNegative, scanHardNegative, hread]

theorem evaluateQuery_rankings {rankings rankings' : Dict String (List RankedRow)}
    (h : ∀ queryId, (rankings.get? queryId).getD [] = (rankings'.get? queryId).getD [])
    (table : JudgmentTable) (negatives : Dict String (List NegativePair)) (query : Row) :
    evaluateQuery py discount k table negatives rankings query =
      evaluateQuery py discount k table negatives rankings' query := by
  simp only [evaluateQuery, h]

/-- **The report does not depend on the order of the qrels and of the rankings.** -/
theorem evaluateRankings_perm {queries qrels qrels' hardNegatives rankings rankings' : List Row}
    {inventory : Option (List Row)} {report : EvaluationReport 𝕜}
    (hdistinct : DistinctQrels py qrels) (hrankings : AcceptedRankings py rankings)
    (hqrels : qrels.Perm qrels') (hrows : rankings.Perm rankings')
    (h : evaluateRankings py discount queries qrels hardNegatives rankings k inventory =
      .ok report) :
    evaluateRankings py discount queries qrels' hardNegatives rankings' k inventory =
      .ok report := by
  rw [evaluateRankings] at h ⊢
  obtain ⟨queryIds, hqueryIds, h⟩ := bind_eq_ok.mp h
  obtain ⟨table, htable, h⟩ := bind_eq_ok.mp h
  obtain ⟨negatives, hnegatives, h⟩ := bind_eq_ok.mp h
  obtain ⟨ranked, hranked, h⟩ := bind_eq_ok.mp h
  obtain ⟨table', htable', halike⟩ := judge_perm hqrels hdistinct htable
  obtain ⟨hrankings', hsame⟩ := hrankings.perm hrows
  obtain ⟨sorted, hsorted, hlookup⟩ := hrankings.sortRankings_eq_ok
  obtain rfl := Except.ok.inj (hsorted.symm.trans hranked)
  obtain ⟨sorted', hsorted', hlookup'⟩ := hrankings'.sortRankings_eq_ok
  have hevaluate : evaluateQuery py discount k table' negatives sorted' =
      evaluateQuery py discount k table negatives sorted := by
    funext query
    rw [← evaluateQuery_congr halike]
    refine evaluateQuery_rankings (fun queryId => ?_) table negatives query
    rw [hlookup, hlookup', hsame]
  rw [hqueryIds, ok_bind, htable', ok_bind, ← negativePairs_congr halike, hnegatives, ok_bind,
    hsorted', ok_bind, hevaluate]
  exact h

end Triplets

end LivefireRag.Evaluation
