import LivefireRag.Evaluation.Accepted

/-!
# Judged documents

What the qrels come to. When no document is judged twice for a query, the judged documents
of a query are those of its rows (`entries_documents`), in whatever order the rows come;
and in a table that is accepted the documents of an evidence group have one grade
(`inconsistentGroups_eq_nil`).
-/

namespace LivefireRag.Evaluation

open Fallible

/-! ### The greatest value of a group -/

section Maxima

variable {ν : Type} [LinearOrder ν] {rows rows' : List (String × ν)} {k : String} {v : ν}

theorem groupMaxima_concat (rows : List (String × ν)) (row : String × ν) :
    groupMaxima (rows ++ [row]) = (groupMaxima rows).update row.1 fun value =>
      match value with
      | some value => max row.2 value
      | none => row.2 := by
  rw [groupMaxima, List.foldl_append]
  rfl

theorem mem_keys_groupMaxima : k ∈ (groupMaxima rows).keys ↔ k ∈ rows.map Prod.fst := by
  have hkeys := Dict.mem_keys_foldl_update (k := k) Prod.fst
    (fun row (value : Option ν) => match value with
      | some value => max row.2 value
      | none => row.2) rows Dict.empty
  exact hkeys.trans (or_iff_left List.not_mem_nil)

/-- **A group has the greatest of its values.** -/
theorem get?_groupMaxima : (groupMaxima rows).get? k = some v ↔
    (k, v) ∈ rows ∧ ∀ w, (k, w) ∈ rows → w ≤ v := by
  induction rows using List.reverseRecOn generalizing v with
  | nil => exact iff_of_false nofun fun h => List.not_mem_nil h.1
  | append_singleton rows row ih =>
    obtain ⟨k', w⟩ := row
    rw [groupMaxima_concat, Dict.get?_update]
    simp only [List.mem_append, List.mem_singleton, Prod.mk.injEq]
    by_cases hk : k = k'
    · subst hk
      rw [if_pos rfl]
      cases hold : (groupMaxima rows).get? k with
      | none =>
        have hnone : ∀ x, (k, x) ∉ rows := by
          intro x hx
          exact Dict.get?_eq_none_iff.mp hold
            (mem_keys_groupMaxima.mpr (List.mem_map_of_mem hx))
        constructor
        · intro hv
          obtain rfl := Option.some.inj hv
          exact ⟨.inr ⟨rfl, rfl⟩, fun x hx => (hx.resolve_left (hnone x)).2.le⟩
        · rintro ⟨hv, -⟩
          rw [(hv.resolve_left (hnone v)).2]
      | some old =>
        obtain ⟨hold, hbound⟩ := ih.mp hold
        constructor
        · intro hv
          have hmaximum : max w old = v := Option.some.inj hv
          subst hmaximum
          refine ⟨?_, fun x hx => ?_⟩
          · rcases max_choice w old with hmax | hmax
            · exact .inr ⟨rfl, hmax⟩
            · exact .inl (hmax.symm ▸ hold)
          · rcases hx with hx | ⟨-, rfl⟩
            · exact (hbound x hx).trans (le_max_right _ _)
            · exact le_max_left _ _
        · rintro ⟨hv, hall⟩
          refine congrArg some (le_antisymm ?_ ?_)
          · exact max_le (hall w (.inr ⟨rfl, rfl⟩)) (hall old (.inl hold))
          · rcases hv with hv | ⟨-, rfl⟩
            · exact (hbound v hv).trans (le_max_right _ _)
            · exact le_max_left _ _
    · rw [if_neg hk, ih]
      simp only [hk, false_and, or_false]

theorem get?_groupMaxima_perm (h : rows.Perm rows') (k : String) :
    (groupMaxima rows).get? k = (groupMaxima rows').get? k := by
  ext v
  simp only [get?_groupMaxima, h.mem_iff]

/-- Where the values of a group are all the same, they are its value. -/
theorem get?_groupMaxima_of_unique (h : ∀ w, (k, w) ∈ rows → w = v) (hmem : (k, v) ∈ rows) :
    (groupMaxima rows).get? k = some v :=
  get?_groupMaxima.mpr ⟨hmem, fun w hw => (h w hw).le⟩

end Maxima

/-! ### Consistent groups -/

/-- The documents of an evidence group have one grade. -/
def Consistent (documents : Dict String Judgment) : Prop :=
  ∀ entry ∈ documents.entries, ∀ entry' ∈ documents.entries,
    entry.2.groupId = entry'.2.groupId → entry.2.grade = entry'.2.grade

theorem mem_judgments {table : JudgmentTable} {queryId : String} {judgment : Judgment} :
    (queryId, judgment) ∈ judgments table ↔
      ∃ entry ∈ (table.documents queryId).entries, entry.2 = judgment := by
  simp only [judgments, List.mem_flatMap, List.mem_map, JudgmentTable.documents]
  constructor
  · rintro ⟨query, hquery, entry, hentry, heq⟩
    obtain ⟨rfl, rfl⟩ := Prod.mk.inj heq
    exact ⟨entry, by rw [Dict.get?_eq_some_iff.mpr hquery]; exact hentry, rfl⟩
  · rintro ⟨entry, hentry, rfl⟩
    cases hget : table.get? queryId with
    | none =>
      rw [hget] at hentry
      cases hentry
    | some documents =>
      rw [hget] at hentry
      exact ⟨(queryId, documents), Dict.get?_eq_some_iff.mp hget, entry, hentry, rfl⟩

/-- The grades of a group are those of its judgments. -/
theorem mem_foldl_addGrade {rows : List (String × Judgment)} {key : String × String} {grade : ℕ} :
    grade ∈ ((rows.foldl addGrade Dict.empty).get? key).getD ∅ ↔
      (key.1, ⟨grade, key.2⟩) ∈ rows := by
  induction rows using List.reverseRecOn with
  | nil => exact iff_of_false (Finset.notMem_empty grade) List.not_mem_nil
  | append_singleton rows row ih =>
    obtain ⟨queryId, grade', groupId⟩ := row
    rw [List.foldl_append, List.foldl_cons, List.foldl_nil, addGrade, Dict.get?_update,
      List.mem_append, List.mem_singleton, ← ih]
    by_cases hkey : key = (queryId, groupId)
    · subst hkey
      rw [if_pos rfl, Option.getD_some, Finset.mem_insert, or_comm]
      simp
    · rw [if_neg hkey, or_iff_left]
      rintro heq
      obtain ⟨hquery, hjudgment⟩ := Prod.mk.inj heq
      exact hkey (Prod.ext hquery (congrArg Judgment.groupId hjudgment))

/-- **A table is accepted when its groups are consistent**, those of every query. -/
theorem inconsistentGroups_eq_nil {table : JudgmentTable} :
    inconsistentGroups table = [] ↔ ∀ queryId, Consistent (table.documents queryId) := by
  rw [inconsistentGroups, List.map_eq_nil_iff, List.filter_eq_nil_iff]
  simp only [decide_eq_true_eq, not_lt, Finset.card_le_one]
  constructor
  · intro h queryId entry hentry entry' hentry' hgroup
    have hgrade : ∀ e ∈ (table.documents queryId).entries, e.2.groupId = entry.2.groupId →
        e.2.grade ∈ ((groupGrades table).get? (queryId, entry.2.groupId)).getD ∅ := by
      intro e he heq
      refine mem_foldl_addGrade.mpr (mem_judgments.mpr ⟨e, he, ?_⟩)
      rw [← heq]
    have hmem := hgrade entry hentry rfl
    have hmem' := hgrade entry' hentry' hgroup.symm
    cases hget : (groupGrades table).get? (queryId, entry.2.groupId) with
    | none =>
      rw [hget] at hmem
      cases hmem
    | some grades =>
      rw [hget] at hmem hmem'
      exact h _ (Dict.get?_eq_some_iff.mp hget) _ hmem _ hmem'
  · rintro h ⟨⟨queryId, groupId⟩, grades⟩ hentry
    have hread : ∀ grade ∈ grades, ∃ entry ∈ (table.documents queryId).entries,
        entry.2 = ⟨grade, groupId⟩ := by
      intro grade hgrade
      have hget := Dict.get?_eq_some_iff.mpr hentry
      refine mem_judgments.mp ((@mem_foldl_addGrade _ (queryId, groupId) grade).mp ?_)
      rw [groupGrades] at hget
      rw [hget]
      exact hgrade
    intro grade hgrade grade' hgrade'
    obtain ⟨entry, hentry, heq⟩ := hread grade hgrade
    obtain ⟨entry', hentry', heq'⟩ := hread grade' hgrade'
    have hsame := h queryId entry hentry entry' hentry' (by rw [heq, heq'])
    rw [heq, heq'] at hsame
    exact hsame

/-! ### The table of judgments -/

theorem documents_add (table : JudgmentTable) (qrel : Qrel) (queryId : String) :
    (table.add qrel).documents queryId =
      if qrel.queryId = queryId then
        (table.documents queryId).set qrel.documentId qrel.judgment
      else table.documents queryId := by
  unfold JudgmentTable.documents JudgmentTable.add
  rw [Dict.get?_update]
  by_cases hquery : qrel.queryId = queryId
  · rw [if_pos hquery.symm, if_pos hquery, hquery]
    rfl
  · rw [if_neg (Ne.symm hquery), if_neg hquery]

theorem documents_foldl_add (qrels : List Qrel) (table : JudgmentTable) (queryId : String) :
    (qrels.foldl JudgmentTable.add table).documents queryId =
      ((qrels.filter (·.queryId = queryId)).map fun qrel => (qrel.documentId, qrel.judgment)).foldl
        (fun documents entry => documents.set entry.1 entry.2) (table.documents queryId) := by
  induction qrels generalizing table with
  | nil => rfl
  | cons qrel qrels ih =>
    rw [List.foldl_cons, ih, documents_add]
    by_cases hquery : qrel.queryId = queryId
    · rw [if_pos hquery, List.filter_cons_of_pos (by simpa using hquery)]
      rfl
    · rw [if_neg hquery, List.filter_cons_of_neg (by simpa using hquery)]

/-- The query and the document of a qrel. -/
def Qrel.key (qrel : Qrel) : String × String := (qrel.queryId, qrel.documentId)

/-- **The judged documents of a query** are those of its qrels. -/
theorem entries_documents {qrels : List Qrel} (h : (qrels.map Qrel.key).Nodup)
    (queryId : String) :
    ((qrels.foldl JudgmentTable.add Dict.empty).documents queryId).entries =
      (qrels.filter (·.queryId = queryId)).map fun qrel => (qrel.documentId, qrel.judgment) := by
  have hdocuments : (((qrels.filter (·.queryId = queryId)).map fun qrel =>
      (qrel.documentId, qrel.judgment)).map Prod.fst).Nodup := by
    rw [List.map_map]
    refine List.Nodup.map_on ?_ (List.Nodup.of_map _ h |>.filter _)
    intro qrel hqrel qrel' hqrel' heq
    obtain ⟨hmem, hquery⟩ := List.mem_filter.mp hqrel
    obtain ⟨hmem', hquery'⟩ := List.mem_filter.mp hqrel'
    refine List.inj_on_of_nodup_map h hmem hmem' (Prod.ext ?_ heq)
    exact (of_decide_eq_true hquery).trans (of_decide_eq_true hquery').symm
  rw [documents_foldl_add]
  exact Dict.entries_ofList hdocuments

/-- Tables that judge the same documents alike. -/
def JudgedAlike (table table' : JudgmentTable) : Prop :=
  ∀ queryId, (table.documents queryId).entries.Perm (table'.documents queryId).entries

theorem judgedAlike_of_perm {qrels qrels' : List Qrel} (hperm : qrels.Perm qrels')
    (h : (qrels.map Qrel.key).Nodup) :
    JudgedAlike (qrels.foldl JudgmentTable.add Dict.empty)
      (qrels'.foldl JudgmentTable.add Dict.empty) := by
  intro queryId
  rw [entries_documents h, entries_documents ((hperm.map _).nodup_iff.mp h)]
  exact (hperm.filter _).map _

theorem Consistent.perm {documents documents' : Dict String Judgment} (h : Consistent documents)
    (hperm : documents.entries.Perm documents'.entries) : Consistent documents' :=
  fun entry hentry entry' hentry' =>
    h entry (hperm.mem_iff.mpr hentry) entry' (hperm.mem_iff.mpr hentry')

/-! ### Reading the qrels -/

section Reading

variable {𝕜 : Type} {py : Python 𝕜} {queryIds : List String}

variable (py) in
/-- The query and the document of a row that counts. -/
def qrelKey (row : Row) : Option (String × String) :=
  match rowCounts row ["eligible", "duplicate_projection"],
    rowDocumentId py row ["document_id", "command_id"] with
  | .ok true, .ok documentId => some (rankingQueryId py row, documentId)
  | _, _ => none

variable (py) in
/-- No document is judged twice for a query. -/
def DistinctQrels (qrels : List Row) : Prop := (qrels.filterMap (qrelKey py)).Nodup

theorem foldlM_scanQrel_eq_ok {qrels : List Row} {table table' : JudgmentTable} :
    qrels.foldlM (scanQrel py queryIds) table = .ok table' ↔
      ∃ judged, qrels.mapM (readQrel py queryIds) = .ok judged ∧
        table' = judged.reduceOption.foldl JudgmentTable.add table := by
  induction qrels generalizing table with
  | nil =>
    rw [List.foldlM_nil, pure_eq_ok]
    constructor
    · rintro rfl
      exact ⟨[], rfl, rfl⟩
    · rintro ⟨judged, hjudged, rfl⟩
      rw [List.mapM_nil, pure_eq_ok] at hjudged
      rw [← hjudged]
      rfl
  | cons row qrels ih =>
    simp only [List.foldlM_cons, List.mapM_cons, bind_eq_ok, pure_eq_ok, ih, scanQrel]
    constructor
    · rintro ⟨_, ⟨read, hread, hstep⟩, judged, hjudged, rfl⟩
      refine ⟨read :: judged, ⟨read, hread, judged, hjudged, rfl⟩, ?_⟩
      cases read with
      | none => rw [← pure_eq_ok.mp hstep]; rfl
      | some qrel => rw [← pure_eq_ok.mp hstep]; rfl
    · rintro ⟨_, ⟨read, hread, judged, hjudged, rfl⟩, rfl⟩
      cases read with
      | none => exact ⟨table, ⟨none, hread, rfl⟩, judged, hjudged, rfl⟩
      | some qrel => exact ⟨table.add qrel, ⟨some qrel, hread, rfl⟩, judged, hjudged, rfl⟩

theorem readQueryId_eq_ok {row : Row} {queryId : String}
    (h : readQueryId py row = .ok queryId) : rankingQueryId py row = queryId := by
  simp only [readQueryId, Row.item, bind_eq_ok, orThrow_eq_ok, pure_eq_ok] at h
  obtain ⟨value, hvalue, rfl⟩ := h
  rw [rankingQueryId, Row.getD, hvalue]
  rfl

theorem readQrel_key {row : Row} {read : Option Qrel}
    (h : readQrel py queryIds row = .ok read) : qrelKey py row = read.map Qrel.key := by
  simp only [readQrel, bind_eq_ok] at h
  obtain ⟨counts, hcounts, h⟩ := h
  rw [qrelKey, hcounts]
  cases counts with
  | false =>
    rw [← pure_eq_ok.mp h]
    rfl
  | true =>
    simp only [not_true_eq_false, if_false, bind_eq_ok, throwIf_eq_ok, exists_unit, orThrow_eq_ok,
      pure_eq_ok] at h
    obtain ⟨queryId, hquery, -, documentId, hdocument, grade, -, -, rfl⟩ := h
    rw [hdocument, readQueryId_eq_ok hquery]
    rfl

theorem filterMap_qrelKey {qrels : List Row} {judged : List (Option Qrel)}
    (h : qrels.mapM (readQrel py queryIds) = .ok judged) :
    qrels.filterMap (qrelKey py) = judged.reduceOption.map Qrel.key := by
  rw [mapM_eq_ok] at h
  induction h with
  | nil => rfl
  | @cons row read rows judged hread _ ih =>
    rw [List.filterMap_cons, readQrel_key hread, ih]
    cases read with
    | none => rfl
    | some qrel => rfl

theorem qrelKey_eq_some {row : Row} {key : String × String} (h : qrelKey py row = some key) :
    (rankingQueryId py row, documentText py row) = key := by
  unfold qrelKey at h
  split at h
  · next hdocument =>
    rw [← Option.some.inj h, documentText_of_eq_ok hdocument]
  · cases h

/-- The rows that count have distinct keys when all rows do, as the tool demands. -/
theorem distinctQrels_of_unique {qrels : List Row} {label : String}
    (h : requireUniqueDocuments py qrels label ["document_id", "command_id"] = .ok ()) :
    DistinctQrels py qrels := by
  obtain ⟨-, hnodup⟩ := requireUniqueDocuments_eq_ok h
  refine hnodup.sublist ?_
  clear h hnodup
  induction qrels with
  | nil => exact List.Sublist.refl _
  | cons row qrels ih =>
    rw [List.filterMap_cons]
    split
    · exact ih.cons _
    · next key hkey =>
      rw [List.map_cons, qrelKey_eq_some hkey]
      exact ih.cons_cons key

theorem judge_eq_ok {qrels : List Row} {table : JudgmentTable} :
    judge py queryIds qrels = .ok table ↔
      ∃ judged, qrels.mapM (readQrel py queryIds) = .ok judged ∧
        table = judged.reduceOption.foldl JudgmentTable.add Dict.empty ∧
        ∀ queryId, Consistent (table.documents queryId) := by
  simp only [judge, bind_eq_ok, throwIf_eq_ok, exists_unit, pure_eq_ok, not_not,
    inconsistentGroups_eq_nil, foldlM_scanQrel_eq_ok]
  constructor
  · rintro ⟨_, ⟨judged, hjudged, rfl⟩, hconsistent, rfl⟩
    exact ⟨judged, hjudged, rfl, hconsistent⟩
  · rintro ⟨judged, hjudged, rfl, hconsistent⟩
    exact ⟨_, ⟨judged, hjudged, rfl⟩, hconsistent, rfl⟩

/-- **The qrels may be written in any order.** -/
theorem judge_perm {qrels qrels' : List Row} {table : JudgmentTable} (hperm : qrels.Perm qrels')
    (hdistinct : DistinctQrels py qrels) (h : judge py queryIds qrels = .ok table) :
    ∃ table', judge py queryIds qrels' = .ok table' ∧ JudgedAlike table table' := by
  obtain ⟨judged, hjudged, rfl, hconsistent⟩ := judge_eq_ok.mp h
  obtain ⟨judged', hjudged', hperm'⟩ := mapM_perm hperm hjudged
  have hkeys : (judged.reduceOption.map Qrel.key).Nodup := by
    rw [← filterMap_qrelKey hjudged]
    exact hdistinct
  have halike := judgedAlike_of_perm (hperm'.filterMap id) hkeys
  exact ⟨_, judge_eq_ok.mpr ⟨judged', hjudged', rfl, fun queryId =>
    (hconsistent queryId).perm (halike queryId)⟩, halike⟩

end Reading

end LivefireRag.Evaluation
