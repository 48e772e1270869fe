import LivefireRag.Evaluation.Report

/-!
# Accepted rankings

What the checks of a ranking leave: every row has a query, a document and a finite
preference or none, no document stands twice in a query's ranking, and the ranks of a query
count its rows from 1 on (`AcceptedRankings`). The rows may then be written in any order
(`AcceptedRankings.perm`), and sorting them finds each query's ranking
(`sortRankings_eq_ok`).
-/

namespace LivefireRag.Evaluation

open Fallible

section Reading

variable {𝕜 : Type} (py : Python 𝕜)

/-- The document of a row that has one. -/
def documentText (row : Row) : String := ((rankingDocumentId py row).toOption).getD ""

/-- The rows of a query. -/
def queryRows (rows : List Row) (queryId : String) : List Row :=
  rows.filter fun row => rankingQueryId py row = queryId

/-- The ranking of a query, in the order of the ranks. -/
def rankedRows (rows : List Row) (queryId : String) : List RankedRow :=
  ((sortRows py (queryRows py rows queryId)).toOption).getD []

/-- The documents ranked for a query, the first one first. -/
def rankedDocuments (rows : List Row) (queryId : String) : List String :=
  (rankedRows py rows queryId).map fun entry => documentText py entry.row

/-- The ranks of a ranking of `n` rows. -/
def countedRanks (n : ℕ) : List ℤ := (List.range n).map fun (i : ℕ) => (i + 1 : ℤ)

structure AcceptedRankings [Field 𝕜] (rows : List Row) : Prop where
  queries : ∀ row ∈ rows, readQueryId py row = .ok (rankingQueryId py row)
  documents : ∀ row ∈ rows, rankingDocumentId py row = .ok (documentText py row)
  distinct : (rows.map fun row => (rankingQueryId py row, documentText py row)).Nodup
  preferences : ∀ row ∈ rows, ∃ preference : Option 𝕜,
    rankingPreference py row = .ok (preference.map .finite)
  ranks : ∀ queryId, ∃ ordered, sortRows py (queryRows py rows queryId) = .ok ordered ∧
    ordered.map RankedRow.rank = countedRanks ordered.length

variable {py}

theorem documentText_of_eq_ok {row : Row} {id : String} (h : rankingDocumentId py row = .ok id) :
    documentText py row = id := by
  rw [documentText, h]
  rfl

theorem readQueryId_of_ne_null {row : Row} (h : row.get "query_id" ≠ .null) :
    readQueryId py row = .ok (rankingQueryId py row) ∧
      py.str (row.get "query_id") = rankingQueryId py row := by
  unfold readQueryId rankingQueryId Row.item Row.get Row.getD at *
  cases hfield : Json.field? row "query_id" with
  | none => exact absurd (by rw [hfield]; rfl) h
  | some value => exact ⟨rfl, rfl⟩

/-! ### The checks -/

/-- The keys seen are those of the rows, and a row is refused when its key is there. -/
theorem requireUniqueDocuments_eq_ok {rows : List Row} {label : String}
    (h : requireUniqueDocuments py rows label ["document_id", "command_id"] = .ok ()) :
    (∀ row ∈ rows, readQueryId py row = .ok (rankingQueryId py row) ∧
      rankingDocumentId py row = .ok (documentText py row)) ∧
    (rows.map fun row => (rankingQueryId py row, documentText py row)).Nodup := by
  obtain ⟨seen, hseen, -⟩ := bind_eq_ok.mp h
  let key (row : Row) := (rankingQueryId py row, documentText py row)
  have hinv := @foldlM_invariant _ _ _ (requireUniqueDocument py label ["document_id", "command_id"])
    (fun pre seen => seen = (pre.map key).reverse ∧ (pre.map key).Nodup ∧
      ∀ row ∈ pre, readQueryId py row = .ok (rankingQueryId py row) ∧
        rankingDocumentId py row = .ok (documentText py row)) rows [] seen
    ⟨rfl, List.nodup_nil, by simp⟩ ?_ hseen
  · exact ⟨hinv.2.2, hinv.2.1⟩
  rintro pre row post seen seen' - ⟨rfl, hnodup, hread⟩ hstep
  simp only [requireUniqueDocument, bind_eq_ok, throwIf_eq_ok, exists_unit, pure_eq_ok] at hstep
  obtain ⟨hquery, id, hid, hnew, rfl⟩ := hstep
  obtain ⟨hreadQuery, htext⟩ := readQueryId_of_ne_null hquery
  have hdocument : documentText py row = id := documentText_of_eq_ok hid
  rw [htext, ← hdocument] at hnew ⊢
  refine ⟨by rw [List.map_append, List.reverse_append]; rfl, ?_, ?_⟩
  · rw [List.map_append, List.nodup_append_comm]
    refine List.nodup_cons.mpr ⟨?_, hnodup⟩
    exact fun hmem => hnew (List.mem_reverse.mpr hmem)
  · intro other hother
    rcases List.mem_append.mp hother with hother | hother
    · exact hread other hother
    · rw [List.mem_singleton.mp hother, hdocument]
      exact ⟨hreadQuery, hid⟩

end Reading

section Scores

variable {𝕜 : Type} [Field 𝕜] {py : Python 𝕜}

/-- The preference of a row is finite when its score is. -/
theorem exists_preference {row : Row} {value : Option (PyFloat 𝕜)} {contract : String × String}
    (hscore : rankingScore py row = .ok value) (hfinite : ∀ v ∈ value, v.isFinite = true)
    (hcontract : rankingScoreContract py row = .ok contract) :
    ∃ preference : Option 𝕜, rankingPreference py row = .ok (preference.map .finite) := by
  rw [rankingPreference, hscore, ok_bind]
  cases value with
  | none => exact ⟨none, rfl⟩
  | some v =>
    have hv := hfinite v rfl
    cases v with
    | finite x =>
      refine ⟨some (if contract.2 = "lower_is_better" then -x else x), ?_⟩
      show (rankingScoreContract py row >>= fun contract => _) = _
      rw [hcontract, ok_bind]
      split
      · rfl
      · rfl
    | infinite positive => cases hv
    | nan => cases hv

variable [LinearOrder 𝕜]

theorem validateRankingRow_preference {label : String} {known : Option (List String)}
    {strict : Bool} {row : Row} (h : validateRankingRow py label known strict row = .ok ()) :
    ∃ preference : Option 𝕜, rankingPreference py row = .ok (preference.map .finite) := by
  simp only [validateRankingRow, validateScore, bind_eq_ok, throwIf_eq_ok, exists_unit] at h
  obtain ⟨-, -, -, -, distance, -, -, -, value, hvalue, hfinite, contract, hcontract, -⟩ := h
  refine exists_preference hvalue (fun v hv => ?_) hcontract
  by_contra hne
  exact hfinite ⟨v, hv, hne⟩

omit [LinearOrder 𝕜] [Field 𝕜] in
theorem sortRows_nil : sortRows py [] = .ok [] := by
  rw [sortRows, List.mapM_nil]
  exact congrArg Except.ok (Ranking.sortBy_of_pairwise List.Pairwise.nil)

theorem validateQueryRows_ranks {label queryId : String} {rows : List Row}
    (h : validateQueryRows py label (queryId, rows) = .ok ()) :
    ∃ ordered, sortRows py rows = .ok ordered ∧
      ordered.map RankedRow.rank = countedRanks ordered.length := by
  simp only [validateQueryRows, bind_eq_ok, throwIf_eq_ok, exists_unit] at h
  obtain ⟨ordered, hordered, hranks, -⟩ := h
  exact ⟨ordered, hordered, not_not.mp hranks⟩

/-- **What `validateRankings` accepts.** -/
theorem validateRankings_accepted {rows : List Row} {label : String}
    {known : Option (List String)} {strict : Bool} {contract : ScoreContract}
    (h : validateRankings py rows label known strict = .ok contract) :
    AcceptedRankings py rows := by
  simp only [validateRankings, bind_eq_ok, throwIf_eq_ok, exists_unit] at h
  obtain ⟨hunique, hrows, contracts, -, -, -, hqueries, -⟩ := h
  obtain ⟨hread, hdistinct⟩ := requireUniqueDocuments_eq_ok hunique
  refine ⟨fun row hrow => (hread row hrow).1, fun row hrow => (hread row hrow).2, hdistinct,
    fun row hrow => validateRankingRow_preference (forM_eq_ok.mp hrows row hrow),
    fun queryId => ?_⟩
  by_cases hnil : queryRows py rows queryId = []
  · exact ⟨[], hnil ▸ sortRows_nil, rfl⟩
  · have hget : (Dict.groupBy (rankingQueryId py) rows).get? queryId =
        some (queryRows py rows queryId) := by
      rw [Dict.get?_groupBy]
      exact if_neg hnil
    exact validateQueryRows_ranks (forM_eq_ok.mp hqueries _ (Dict.get?_eq_some_iff.mp hget))

/-! ### Sorting the rows -/

omit [LinearOrder 𝕜] in
theorem AcceptedRankings.sortRows_eq {rows : List Row} (h : AcceptedRankings py rows)
    (queryId : String) :
    sortRows py (queryRows py rows queryId) = .ok (rankedRows py rows queryId) ∧
      (rankedRows py rows queryId).map RankedRow.rank =
        countedRanks (rankedRows py rows queryId).length := by
  obtain ⟨ordered, hordered, hranks⟩ := h.ranks queryId
  have hrows : rankedRows py rows queryId = ordered := by
    rw [rankedRows, hordered]
    rfl
  rw [hrows]
  exact ⟨hordered, hranks⟩

theorem nodup_countedRanks (n : ℕ) : (countedRanks n).Nodup :=
  List.nodup_range.map fun a b hab => by simpa using hab

omit [LinearOrder 𝕜] [Field 𝕜] in
theorem sortRows_eq_ok {rows : List Row} {ordered : List RankedRow}
    (h : sortRows py rows = .ok ordered) :
    ∃ ranked, rows.mapM (rankedRow py) = .ok ranked ∧ ordered = Ranking.sortBy RankedRow.rank ranked := by
  obtain ⟨ranked, hranked, hordered⟩ := bind_eq_ok.mp h
  exact ⟨ranked, hranked, (pure_eq_ok.mp hordered).symm⟩

omit [LinearOrder 𝕜] [Field 𝕜] in
/-- Rows with distinct ranks are sorted alike in whatever order they come. -/
theorem sortRows_perm {rows rows' : List Row} {ordered : List RankedRow} (hperm : rows.Perm rows')
    (h : sortRows py rows = .ok ordered) (hranks : (ordered.map RankedRow.rank).Nodup) :
    sortRows py rows' = .ok ordered := by
  obtain ⟨ranked, hranked, rfl⟩ := sortRows_eq_ok h
  obtain ⟨ranked', hranked', hperm'⟩ := mapM_perm hperm hranked
  have hkeys : (ranked.map RankedRow.rank).Nodup :=
    ((Ranking.sortBy_perm RankedRow.rank ranked).map _).nodup_iff.mp hranks
  rw [sortRows, hranked', ok_bind, Ranking.sortBy_congr hperm' hkeys]
  rfl

omit [LinearOrder 𝕜] in
/-- **The rows may be written in any order.** -/
theorem AcceptedRankings.perm {rows rows' : List Row} (h : AcceptedRankings py rows)
    (hperm : rows.Perm rows') :
    AcceptedRankings py rows' ∧ rankedRows py rows' = rankedRows py rows := by
  have hsort : ∀ queryId, sortRows py (queryRows py rows' queryId) =
      .ok (rankedRows py rows queryId) := by
    intro queryId
    obtain ⟨hordered, hranks⟩ := h.sortRows_eq queryId
    exact sortRows_perm (hperm.filter _) hordered (hranks ▸ nodup_countedRanks _)
  refine ⟨⟨fun row hrow => h.queries row (hperm.mem_iff.mpr hrow),
    fun row hrow => h.documents row (hperm.mem_iff.mpr hrow), (hperm.map _).nodup_iff.mp h.distinct,
    fun row hrow => h.preferences row (hperm.mem_iff.mpr hrow),
    fun queryId => ⟨_, hsort queryId, (h.sortRows_eq queryId).2⟩⟩, ?_⟩
  funext queryId
  rw [rankedRows, hsort]
  rfl

omit [LinearOrder 𝕜] in
/-- A row of a query's ranking is one of the query's rows. -/
theorem AcceptedRankings.mem_rankedRows {rows : List Row} (h : AcceptedRankings py rows)
    {queryId : String} {entry : RankedRow} (hentry : entry ∈ rankedRows py rows queryId) :
    entry.row ∈ queryRows py rows queryId := by
  obtain ⟨ranked, hranked, hordered⟩ := sortRows_eq_ok (h.sortRows_eq queryId).1
  rw [hordered, Ranking.mem_sortBy] at hentry
  obtain ⟨row, hrow, hread⟩ := exists_of_mem_mapM hranked hentry
  simp only [rankedRow, bind_eq_ok, pure_eq_ok] at hread
  obtain ⟨-, -, -, -, rfl⟩ := hread
  exact hrow

omit [LinearOrder 𝕜] in
/-- **Sorting accepted rows finds the ranking of each query.** -/
theorem AcceptedRankings.sortRankings_eq_ok {rows : List Row} (h : AcceptedRankings py rows) :
    ∃ rankings, sortRankings py rows = .ok rankings ∧
      ∀ queryId, (rankings.get? queryId).getD [] = rankedRows py rows queryId := by
  let keyed (row : Row) := (rankingQueryId py row, row)
  have hread : (rows.mapM fun row => do
      let queryId ← readQueryId py row
      return (queryId, row)) = .ok (rows.map keyed) :=
    mapM_eq_map fun row hrow => by rw [h.queries row hrow]; rfl
  let groups := Dict.groupBy Prod.fst (rows.map keyed)
  have hrows : ∀ queryId, (((rows.map keyed).filter fun entry => entry.1 = queryId).map Prod.snd) =
      queryRows py rows queryId := by
    intro queryId
    rw [List.filter_map, List.map_map]
    exact List.map_id _
  have hsorted : (groups.entries.mapM fun entry => do
      let ranked ← sortRows py (entry.2.map Prod.snd)
      return (entry.1, ranked)) =
      .ok (groups.entries.map fun entry => (entry.1, rankedRows py rows entry.1)) := by
    refine mapM_eq_map fun entry hentry => ?_
    rw [Dict.snd_of_mem_groupBy hentry, hrows, (h.sortRows_eq entry.1).1]
    rfl
  refine ⟨_, by rw [sortRankings, hread, ok_bind, hsorted]; rfl, fun queryId => ?_⟩
  rw [Dict.get?_ofList_map]
  split
  · rfl
  · next hnone =>
    have hnil : queryRows py rows queryId = [] := by
      refine List.filter_eq_nil_iff.mpr fun row hrow heq => hnone ?_
      rw [Dict.mem_keys_groupBy, List.map_map]
      exact List.mem_map.mpr ⟨row, hrow, of_decide_eq_true heq⟩
    rw [rankedRows, hnil, sortRows_nil]
    rfl

end Scores

end LivefireRag.Evaluation
