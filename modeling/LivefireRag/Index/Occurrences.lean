import LivefireRag.Index.Search

/-!
# The occurrences of a hit

What the two queries of the occurrence database answer. The one lists the documents with
a row that passes the filter (`mem_readEligibleDocumentIds`). The other goes through the
passing rows of some documents in the order of documents and occurrences and keeps, for
each document, their number and the first of them (`readMatchingOccurrences_eq`): at each
row, the map holds for every document what the rows so far say about it.
-/

namespace LivefireRag.Index

open Machine Fallible

/-! ### Documents with a passing row -/

theorem mem_readEligibleDocumentIds {rows : List StoredOccurrence} {filters : SearchFilters}
    {documentId : String} : documentId ∈ readEligibleDocumentIds rows filters ↔
      ∃ row ∈ rows, row.documentId = documentId ∧ filters.Passes row := by
  rw [readEligibleDocumentIds, mem_distinctSorted, List.mem_map]
  constructor
  · rintro ⟨row, hrow, rfl⟩
    obtain ⟨hmem, hpasses⟩ := List.mem_filter.mp hrow
    exact ⟨row, hmem, rfl, of_decide_eq_true hpasses⟩
  · rintro ⟨row, hmem, rfl, hpasses⟩
    exact ⟨row, List.mem_filter.mpr ⟨hmem, decide_eq_true hpasses⟩, rfl⟩

/-! ### The passing rows of a document -/

/-- A row as it is shown with a hit. -/
def StoredOccurrence.evidence (row : StoredOccurrence) : EvidenceOccurrence :=
  ⟨row.eventTimeMs.bind fun time => toWidth 64 time.toNat, row.relation, row.snapshotSha256,
    row.mappingSha256, row.eventId, row.supportRef⟩

/-- What is kept of the rows of a document. -/
def summarize (rows : List StoredOccurrence) : Option MatchedOccurrences :=
  if rows = [] then none
  else some ⟨rows.length, (rows.take maxReturnedOccurrencesPerHit).map StoredOccurrence.evidence⟩

/-- One more row of the document. -/
theorem summarize_concat (rows : List StoredOccurrence) (row : StoredOccurrence) :
    summarize (rows ++ [row]) =
      let entry := (summarize rows).getD ⟨0, []⟩
      some ⟨entry.eligibleCount + 1, if entry.rows.length < maxReturnedOccurrencesPerHit then
        entry.rows ++ [row.evidence] else entry.rows⟩ := by
  have hentry : (summarize rows).getD ⟨0, []⟩ = ⟨rows.length,
      (rows.take maxReturnedOccurrencesPerHit).map StoredOccurrence.evidence⟩ := by
    unfold summarize
    split
    · next hnil =>
      subst hnil
      rfl
    · rfl
  rw [hentry, summarize, if_neg (by simp), List.length_append, List.length_singleton]
  dsimp only
  rw [List.length_map, List.length_take]
  by_cases hfull : rows.length < maxReturnedOccurrencesPerHit
  · rw [if_pos (by omega), List.take_of_length_le hfull.le, List.take_of_length_le (by simp; omega),
      List.map_append]
    rfl
  · rw [if_neg (by omega), List.take_append_of_le_length (not_lt.mp hfull)]

/-- The rows of a document. -/
def rowsOf (documentId : String) (rows : List StoredOccurrence) : List StoredOccurrence :=
  rows.filter (·.documentId = documentId)

/-- The map holds what the rows say about every document. -/
def Summarizes (rows : List StoredOccurrence) (matched : SortedMap String MatchedOccurrences) :
    Prop :=
  ∀ documentId, matched.get? documentId = summarize (rowsOf documentId rows)

/-- The time of a row is not negative. -/
def StoredOccurrence.Timed (row : StoredOccurrence) : Prop := ∀ time ∈ row.eventTimeMs, 0 ≤ time

theorem matchOccurrence_summarizes {rows : List StoredOccurrence} {row : StoredOccurrence}
    {matched : SortedMap String MatchedOccurrences} (hrows : Summarizes rows matched)
    (htime : row.Timed) :
    ∃ matched', matchOccurrence matched row = .ok matched' ∧
      Summarizes (rows ++ [row]) matched' := by
  have htime : ¬ ∃ time ∈ row.eventTimeMs, time < 0 := by
    rintro ⟨time, hmem, hlt⟩
    exact absurd (htime time hmem) (not_le.mpr hlt)
  refine ⟨_, throwIf_bind_of_not htime, fun documentId => ?_⟩
  rw [SortedMap.get?_insert, rowsOf, List.filter_append]
  by_cases hid : documentId = row.documentId
  · subst hid
    have hone : [row].filter (fun other => decide (other.documentId = row.documentId)) = [row] :=
      List.filter_cons_of_pos (decide_eq_true rfl)
    rw [if_pos rfl, hone, summarize_concat, hrows]
    rfl
  · have hnone : [row].filter (fun other => decide (other.documentId = documentId)) = [] :=
      List.filter_cons_of_neg fun heq => hid (of_decide_eq_true heq).symm
    rw [if_neg hid, hnone, List.append_nil]
    exact hrows documentId

/-- The loop over the rows. -/
theorem foldlM_matchOccurrence {rows : List StoredOccurrence} (htime : ∀ row ∈ rows, row.Timed) :
    ∃ matched, rows.foldlM matchOccurrence SortedMap.empty = .ok matched ∧
      Summarizes rows matched := by
  refine foldlM_total (P := Summarizes) (fun documentId => rfl) ?_
  intro before row after matched hsplit hbefore
  refine matchOccurrence_summarizes hbefore (htime row ?_)
  rw [hsplit]
  exact List.mem_append_right _ (List.mem_cons_self ..)

/-- The passing rows of a document, by the ids of the occurrences. -/
def passingRows (rows : List StoredOccurrence) (filters : SearchFilters) (documentId : String) :
    List StoredOccurrence :=
  Ranking.sortBy (·.occurrenceId) (rowsOf documentId (rows.filter (filters.Passes ·)))

/-- Sorting by documents and occurrences sorts the rows of each document. -/
theorem rowsOf_sortBy {rows : List StoredOccurrence} (hids : (rows.map (·.occurrenceId)).Nodup)
    (documentId : String) :
    rowsOf documentId (Ranking.sortBy (fun row : StoredOccurrence =>
      toLex (row.documentId, row.occurrenceId)) rows) =
      Ranking.sortBy (·.occurrenceId) (rowsOf documentId rows) := by
  refine Ranking.eq_sortBy ((Ranking.sortBy_perm _ rows).filter _) ?_
    (hids.sublist (List.filter_sublist.map _))
  have hsorted := Ranking.sortBy_pairwise (fun row : StoredOccurrence =>
    toLex (row.documentId, row.occurrenceId)) rows
  refine (hsorted.filter _).imp_of_mem fun hx hy hle => ?_
  -- two rows of the document are compared by their occurrences
  have hx := of_decide_eq_true (List.mem_filter.mp hx).2
  have hy := of_decide_eq_true (List.mem_filter.mp hy).2
  rw [hx, hy, Prod.Lex.toLex_le_toLex] at hle
  exact hle.elim (fun hlt => absurd hlt (lt_irrefl _)) And.right

/-- **The occurrences of some documents**: of each that has passing rows, their number and
the first of them. -/
theorem readMatchingOccurrences_eq {rows : List StoredOccurrence} {documentIds : List String}
    {filters : SearchFilters} (hids : (rows.map (·.occurrenceId)).Nodup)
    (htime : ∀ row ∈ rows, row.Timed) :
    ∃ matched, readMatchingOccurrences rows documentIds filters = .ok matched ∧
      ∀ documentId ∈ documentIds,
        matched.get? documentId = summarize (passingRows rows filters documentId) := by
  have hsorted : ∀ row ∈ Ranking.sortBy (fun row : StoredOccurrence =>
      toLex (row.documentId, row.occurrenceId))
      (rows.filter fun row => row.documentId ∈ documentIds ∧ filters.Passes row), row.Timed :=
    fun row hrow => htime row (List.mem_filter.mp (Ranking.mem_sortBy.mp hrow)).1
  obtain ⟨matched, hrun, hmatched⟩ := foldlM_matchOccurrence hsorted
  refine ⟨matched, hrun, fun documentId hdocument => ?_⟩
  have hselected : rowsOf documentId
      (rows.filter fun row => row.documentId ∈ documentIds ∧ filters.Passes row) =
      rowsOf documentId (rows.filter (filters.Passes ·)) := by
    rw [rowsOf, rowsOf, List.filter_filter, List.filter_filter]
    refine List.filter_congr fun row _ => ?_
    rw [Bool.eq_iff_iff]
    simp only [Bool.and_eq_true, decide_eq_true_iff]
    constructor
    · exact fun h => ⟨h.1, h.2.2⟩
    · exact fun h => ⟨h.1, h.1.symm ▸ hdocument, h.2⟩
  rw [hmatched documentId, rowsOf_sortBy (hids.sublist (List.filter_sublist.map _)), hselected]
  rfl

end LivefireRag.Index
