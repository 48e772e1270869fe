import LivefireRag.Index.Occurrences
import LivefireRag.Index.Published

/-!
# Searching a published index

What is searched is what was written. The files of a published index are read back by four
separate paths: the row file with its order digest, the vector file by byte offsets, the
occurrence database by two queries, and one of the two lexical forms. Over all of them a
search answers what the rows themselves say (`search_published`):

* `SearchFilters.Matches` is the filter on an occurrence as it was given to the writer, and
  `EligibleRows` are the documents it leaves,
* `rankRows` is the ranking of these documents by the vectors, by the terms or by both,
* `rowHit` is the hit of a document, with the occurrences that match.

Nothing in `searchRows` mentions the format the index was published in, so the two formats
answer alike. The two queries of the occurrence database compare signed times; their answer
is the filter's own as long as the bounds are signed numbers, or no occurrence stands at the
last signed millisecond (`SearchFilters.Comparable`).

Scores are exact. `Scoring.Reads` is what the search relies on besides: its check of a norm
is the writer's, and a product of finite rows is a finite number.
-/

namespace LivefireRag.Index

open Machine Fallible Tables LivefireRag.Embedding

/-! ### The answer in terms of the rows -/

/-- What the filter asks of an occurrence. A time that is missing is within no bound. -/
def SearchFilters.Matches (filters : SearchFilters) (row : FastOccurrence) : Prop :=
  (filters.relations = [] ∨ row.relation ∈ filters.relations) ∧
    (∀ start ∈ filters.timeStartMs, ∃ time ∈ row.eventTimeMs, start ≤ time) ∧
    ∀ stop ∈ filters.timeEndMs, ∃ time ∈ row.eventTimeMs, time < stop

instance (filters : SearchFilters) : DecidablePred filters.Matches := fun row => by
  unfold SearchFilters.Matches
  infer_instance

/-- The last time the occurrence database can hold. -/
def lastSignedTime : ℕ := 2 ^ 63 - 1

/-- The bounds are signed numbers, or no time is the last signed one. -/
def SearchFilters.Comparable (filters : SearchFilters) (occurrences : List FastOccurrence) : Prop :=
  (∀ bound : U64, filters.timeStartMs = some bound ∨ filters.timeEndMs = some bound →
      (bound : ℕ) < 2 ^ 63) ∨
    ∀ row ∈ occurrences, ∀ time ∈ row.eventTimeMs, (time : ℕ) ≠ lastSignedTime

/-- The occurrences of a document that match, by their ids. -/
def matchingRows (occurrences : List FastOccurrence) (filters : SearchFilters)
    (documentId : String) : List FastOccurrence :=
  Ranking.sortBy (·.occurrenceId)
    ((occurrences.filter (filters.Matches ·)).filter (·.documentId = documentId))

/-- Some occurrence of the document matches. -/
def EligibleRows (occurrences : List FastOccurrence) (filters : SearchFilters)
    (documentId : String) : Prop :=
  ∃ row ∈ occurrences, row.documentId = documentId ∧ filters.Matches row

instance (occurrences : List FastOccurrence) (filters : SearchFilters) :
    DecidablePred (EligibleRows occurrences filters) := fun documentId => by
  unfold EligibleRows
  infer_instance

/-- An occurrence as it is shown with a hit. -/
def FastOccurrence.evidence (row : FastOccurrence) : EvidenceOccurrence :=
  ⟨row.eventTimeMs, row.relation, row.snapshotSha256, row.mappingSha256, row.eventId,
    row.supportRef⟩

def textOf (documents : List FastDocument) (documentId : String) : String :=
  ((documents.find? (·.documentId = documentId)).map (·.semanticText)).getD ""

section Rows

variable {𝕜 : Type} [Field 𝕜] [LinearOrder 𝕜] (scoring : Scoring 𝕜) (ln : 𝕜 → 𝕜)
  (documents : List FastDocument) (occurrences : List FastOccurrence)
  (vectors : List OrderedVector)

/-- The hit at a place of the ranking. -/
def rowHit (filters : SearchFilters) (dense lexical : Option (Scores 𝕜)) (index : ℕ)
    (entry : String × 𝕜) : SearchHit 𝕜 :=
  let matching := matchingRows occurrences filters entry.1
  { rank := index + 1
    documentId := entry.1
    semanticText := textOf documents entry.1
    score := entry.2
    denseScore := scoreIn dense entry.1
    lexicalScore := scoreIn lexical entry.1
    eligibleOccurrenceCount := (toWidth 64 matching.length).getD 0
    occurrencesExhausted := matching.length ≤ maxReturnedOccurrencesPerHit
    occurrences := (matching.take maxReturnedOccurrencesPerHit).map FastOccurrence.evidence }

/-- By falling score, then by id. -/
def rankKey (entry : String × 𝕜) : 𝕜ᵒᵈ ×ₗ String := toLex (OrderDual.toDual entry.2, entry.1)

/-- The ranking of the eligible documents by their vectors. -/
def rankByVectors (filters : SearchFilters) (excluded : List String) (query : List F32) :
    Scores 𝕜 :=
  Ranking.sortBy rankKey
    (((documents.zip vectors).filter fun pair =>
        EligibleRows occurrences filters pair.1.documentId ∧ pair.1.documentId ∉ excluded).map
      fun pair => (pair.1.documentId, scoring.dot pair.2.values query))

/-- The ranking of the eligible documents by the terms of the query. -/
def rankByTerms (filters : SearchFilters) (queryText : String) : Scores 𝕜 :=
  Ranking.sortBy rankKey <| (documents.filter fun document =>
      EligibleRows occurrences filters document.documentId).filterMap fun document =>
    let worth := worthOfTerms ln documents (distinctSorted (tokenize queryText)) document
    if 0 < worth then some (document.documentId, worth) else none

/-- The first of the hits that the rows give. -/
def rankRows (mode : SearchMode) (filters : SearchFilters) (topN : ℕ) (excluded : List String)
    (queryText : String) (query : List F32) : List (SearchHit 𝕜) :=
  let dense := rankByVectors scoring documents occurrences vectors filters excluded query
  let lexical := rankByTerms ln documents occurrences filters queryText
  let hits (dense lexical : Option (Scores 𝕜)) (ranking : Scores 𝕜) : List (SearchHit 𝕜) :=
    (ranking.take topN).mapIdx (rowHit documents occurrences filters dense lexical)
  match mode with
  | .dense => hits (some dense) none dense
  | .lexical => hits none (some lexical) lexical
  | .fused => hits (some dense) (some lexical)
      (reciprocalRankFusion (scoring.bm25 ln) dense lexical)

/-- The vector of a search, which must be one of the profile. -/
def profileQuery (profile : EmbeddingProfile) (queryVector : Option (List F32)) :
    Result (List F32) := do
  let query ← orThrow queryVector (.invalid "query vector")
  validateQueryVectorValues scoring query profile.dimensions profile.normalization
  return query

/-- The answer to a search, from the rows and the profile alone. -/
def searchRows (profile : EmbeddingProfile) (mode : SearchMode) (queryText : String)
    (queryVector : Option (List F32)) (filters : SearchFilters) (topN : ℕ) :
    Result (List (SearchHit 𝕜)) := do
  throwIf (topN = 0 ∨ 100 < topN) (.invalid "top_n")
  throwIf filters.Invalid (.invalid "search filters")
  let query ← if mode.UsesVector then profileQuery scoring profile queryVector else pure []
  return rankRows scoring ln documents occurrences vectors mode filters topN [] queryText query

end Rows

/-- What a search relies on in the arithmetic: the check of a norm is the one the writer
made, and the product of two rows is a number. -/
structure Scoring.Reads {𝕜 : Type} (scoring : Scoring 𝕜) (unitNorm : List F32 → Bool) : Prop where
  unitNorm_eq : scoring.unitNorm = unitNorm
  finite_dot : ∀ row query, scoring.isFinite (scoring.dot row query) = true

/-! ### The filter in the occurrence database -/

section Filter

variable {source : SourceBinding} {occurrences : List FastOccurrence} {filters : SearchFilters}

/-- A row of the database, as it was written. -/
def FastOccurrence.storedRow (row : FastOccurrence) : StoredOccurrence := row.lookupRow.stored

theorem stored_eventTimeMs (row : OccurrenceRow) :
    row.stored.eventTimeMs = row.eventTimeMs.map fun time : ℕ => (time : ℤ) := by
  unfold OccurrenceRow.stored
  cases row.eventTimeMs with
  | none => rfl
  | some time => rfl

theorem storedRow_eventTimeMs {row : FastOccurrence} (h : OccurrenceAccepted source row) :
    row.storedRow.eventTimeMs = row.eventTimeMs.map fun time : U64 => ((time : ℕ) : ℤ) := by
  rw [FastOccurrence.storedRow, stored_eventTimeMs, FastOccurrence.lookupRow]
  dsimp only
  cases htime : row.eventTimeMs with
  | none => rfl
  | some time =>
    have hlt := h.time_lt time htime
    rw [Option.bind_some, toI64_eq_some.mpr ⟨hlt, rfl⟩]
    rfl

/-- The clamp of a lower bound makes no difference to a time that is not the last one. -/
theorem clamp_le_iff {bound time : U64} (htime : (time : ℕ) < 2 ^ 63)
    (h : (bound : ℕ) < 2 ^ 63 ∨ (time : ℕ) ≠ lastSignedTime) :
    clampToI64 bound ≤ ((time : ℕ) : ℤ) ↔ bound ≤ time := by
  rw [Fin.le_def, clampToI64]
  unfold lastSignedTime at h
  split
  · exact Nat.cast_le
  · omega

theorem lt_clamp_iff {bound time : U64} (htime : (time : ℕ) < 2 ^ 63)
    (h : (bound : ℕ) < 2 ^ 63 ∨ (time : ℕ) ≠ lastSignedTime) :
    ((time : ℕ) : ℤ) < clampToI64 bound ↔ time < bound := by
  rw [Fin.lt_def, clampToI64]
  unfold lastSignedTime at h
  split
  · exact Nat.cast_lt
  · omega

/-- The query passes a row exactly when the filter matches the occurrence. -/
theorem passes_storedRow_iff {row : FastOccurrence} (hrow : row ∈ occurrences)
    (haccepted : OccurrenceAccepted source row) (hcomparable : filters.Comparable occurrences) :
    filters.Passes row.storedRow ↔ filters.Matches row := by
  have htimes : ∀ P : ℤ → Prop, (∃ time ∈ row.storedRow.eventTimeMs, P time) ↔
      ∃ time ∈ row.eventTimeMs, P ((time : ℕ) : ℤ) := by
    intro P
    rw [storedRow_eventTimeMs haccepted]
    constructor
    · rintro ⟨_, hmem, hP⟩
      obtain ⟨time, htime, rfl⟩ := Option.map_eq_some_iff.mp hmem
      exact ⟨time, htime, hP⟩
    · rintro ⟨time, htime, hP⟩
      exact ⟨_, Option.map_eq_some_iff.mpr ⟨time, htime, rfl⟩, hP⟩
  -- a bound of the filter and a time of the row are compared as they are
  have hbound : ∀ bound, filters.timeStartMs = some bound ∨ filters.timeEndMs = some bound →
      ∀ time ∈ row.eventTimeMs, (bound : ℕ) < 2 ^ 63 ∨ (time : ℕ) ≠ lastSignedTime := by
    intro bound hbound time htime
    exact hcomparable.imp (fun hsigned => hsigned bound hbound)
      fun hlast => hlast row hrow time htime
  refine and_congr Iff.rfl (and_congr ?_ ?_)
  · refine forall₂_congr fun start hstart => (htimes _).trans (exists_congr fun time => ?_)
    exact and_congr_right fun htime =>
      clamp_le_iff (haccepted.time_lt time htime) (hbound start (.inl hstart) time htime)
  · refine forall₂_congr fun stop hstop => (htimes _).trans (exists_congr fun time => ?_)
    exact and_congr_right fun htime =>
      lt_clamp_iff (haccepted.time_lt time htime) (hbound stop (.inr hstop) time htime)

theorem storedRow_evidence {row : FastOccurrence} (h : OccurrenceAccepted source row) :
    row.storedRow.evidence = row.evidence := by
  have htime : (row.storedRow.eventTimeMs.bind fun time => toWidth 64 time.toNat) =
      row.eventTimeMs := by
    rw [storedRow_eventTimeMs h]
    cases row.eventTimeMs with
    | none => rfl
    | some time => exact toWidth_eq_some.mpr rfl
  rw [StoredOccurrence.evidence, htime]
  rfl

theorem timed_storedRow {row : FastOccurrence} (h : OccurrenceAccepted source row) :
    row.storedRow.Timed := by
  intro time htime
  rw [storedRow_eventTimeMs h] at htime
  obtain ⟨value, -, rfl⟩ := Option.map_eq_some_iff.mp htime
  exact Int.natCast_nonneg _

/-- The passing rows of a document are its matching occurrences. -/
theorem passingRows_stored (hrows : ∀ row ∈ occurrences, OccurrenceAccepted source row)
    (hcomparable : filters.Comparable occurrences) (documentId : String) :
    passingRows (occurrences.map FastOccurrence.storedRow) filters documentId =
      (matchingRows occurrences filters documentId).map FastOccurrence.storedRow := by
  have hpass : (occurrences.map FastOccurrence.storedRow).filter (filters.Passes ·) =
      (occurrences.filter (filters.Matches ·)).map FastOccurrence.storedRow := by
    rw [List.filter_map]
    refine congrArg _ (List.filter_congr fun row hrow => ?_)
    exact decide_eq_decide.mpr (passes_storedRow_iff hrow (hrows row hrow) hcomparable)
  rw [passingRows, hpass, rowsOf, List.filter_map, matchingRows]
  exact Ranking.sortBy_map_of_key _ (fun _ => rfl) _

/-- The documents the first query lists. -/
theorem mem_eligible_stored (hrows : ∀ row ∈ occurrences, OccurrenceAccepted source row)
    (hcomparable : filters.Comparable occurrences) {documentId : String} :
    documentId ∈ readEligibleDocumentIds (occurrences.map FastOccurrence.storedRow) filters ↔
      EligibleRows occurrences filters documentId := by
  rw [mem_readEligibleDocumentIds]
  constructor
  · rintro ⟨_, hmem, hid, hpasses⟩
    obtain ⟨row, hrow, rfl⟩ := List.mem_map.mp hmem
    exact ⟨row, hrow, hid, (passes_storedRow_iff hrow (hrows row hrow) hcomparable).mp hpasses⟩
  · rintro ⟨row, hrow, hid, hmatches⟩
    exact ⟨row.storedRow, List.mem_map_of_mem hrow, hid,
      (passes_storedRow_iff hrow (hrows row hrow) hcomparable).mpr hmatches⟩

theorem mem_matchingRows {documentId : String} {row : FastOccurrence} :
    row ∈ matchingRows occurrences filters documentId ↔
      row ∈ occurrences ∧ filters.Matches row ∧ row.documentId = documentId := by
  rw [matchingRows, Ranking.mem_sortBy, List.mem_filter, List.mem_filter, decide_eq_true_iff,
    decide_eq_true_iff, and_assoc]

/-- An eligible document has a matching occurrence. -/
theorem EligibleRows.matchingRows_ne_nil {documentId : String}
    (h : EligibleRows occurrences filters documentId) :
    matchingRows occurrences filters documentId ≠ [] := by
  obtain ⟨row, hrow, hid, hmatches⟩ := h
  intro hnil
  have hmem := mem_matchingRows.mpr ⟨hrow, hmatches, hid⟩
  rw [hnil] at hmem
  cases hmem

end Filter

/-! ### The readers over a published index -/

/-- The index of the rows, as it is opened. -/
def openedIndex (prims : Pipeline.Primitives) (storage : Storage) (options : IndexAssemblyOptions)
    (documents : List FastDocument) (occurrences : List FastOccurrence)
    (vectors : List OrderedVector) : OpenFastIndex :=
  (publishedIndex prims storage options documents occurrences vectors).opened storage
    (lexicalBackend documents options.lexicalFormat)

section Readers

variable {prims : Pipeline.Primitives} {storage : Storage} {readers : FileReaders}
  {unitNorm : List F32 → Bool} {options : IndexAssemblyOptions} {documents : List FastDocument}
  {occurrences : List FastOccurrence} {vectors : List OrderedVector}

/-- The row file passes the checks of the reader. -/
theorem readDocuments_published (h : Publishable unitNorm options documents occurrences vectors)
    (hread : ReadsBack storage readers
      (publishedIndex prims storage options documents occurrences vectors)) :
    (openedIndex prims storage options documents occurrences vectors).readDocuments prims readers =
      .ok documents := by
  have hrows : (publishedIndex prims storage options documents occurrences
      vectors).documents.flatten = documents := RowWriter.flatten_close_ofRows documents
  have hdocuments : readers.documents (openedIndex prims storage options documents occurrences
      vectors).documents = some documents := by
    have hfile := hread.documents
    rw [hrows] at hfile
    exact hfile
  have hordinals : ∀ entry ∈ documents.zipIdx, (entry.1.vectorOrdinal : ℕ) = entry.2 := by
    intro entry hentry
    have hget := List.mem_zipIdx_iff_getElem?.mp hentry
    exact h.documents_accepted.ordinals entry.2 entry.1 hget
  rw [OpenFastIndex.readDocuments, hdocuments]
  refine throwIf_bind_of_not ?_
  rintro (hlength | hdigest | hbound | ⟨entry, hentry, hne⟩)
  · exact hlength rfl
  · exact hdigest rfl
  · exact hbound rfl
  · exact hne (hordinals entry hentry)

theorem readLookup_published (hread : ReadsBack storage readers
      (publishedIndex prims storage options documents occurrences vectors)) :
    readers.lookup (openedIndex prims storage options documents occurrences
        vectors).occurrenceLookup =
      some ⟨occurrences.map FastOccurrence.storedRow,
        (publishedLookup options occurrences).metadata⟩ := by
  refine hread.lookup.trans ?_
  show some (OccurrenceLookup.stored (publishedLookup options occurrences)) = _
  rw [OccurrenceLookup.stored, publishedLookup, List.map_map]
  rfl

/-- The tables of a published index of the third version. -/
theorem readTables_published (hread : ReadsBack storage readers
      (publishedIndex prims storage options documents occurrences vectors))
    (hformat : options.lexicalFormat = .sqliteV3) :
    readers.lexicalTables (openedIndex prims storage options documents occurrences
        vectors).lexicalFile = some (writtenLexicalTables prims.sha256 documents).stored := by
  refine hread.lexicalTables _ ?_
  show publishedLexical prims documents options.lexicalFormat = _
  rw [hformat]
  rfl

theorem readJson_published (hread : ReadsBack storage readers
      (publishedIndex prims storage options documents occurrences vectors))
    (hformat : options.lexicalFormat = .jsonV2) :
    readers.lexicalJson (openedIndex prims storage options documents occurrences
        vectors).lexicalFile = some ⟨documents.length, averageOf documents,
      collectedFrequency documents, documents.map describedLexicalDocument⟩ := by
  refine hread.lexicalJson _ ?_
  show publishedLexical prims documents options.lexicalFormat = _
  rw [hformat]
  rfl

/-! ### Which documents are eligible -/

theorem Publishable.ids_nodup (h : Publishable unitNorm options documents occurrences vectors) :
    (documents.map (·.documentId)).Nodup := by
  rw [List.nodup_iff_pairwise_ne, List.pairwise_map]
  exact h.documents_accepted.ascending.imp fun hlt => hlt.ne

/-- Every document has an occurrence. -/
theorem Publishable.exists_occurrence
    (h : Publishable unitNorm options documents occurrences vectors) {document : FastDocument}
    (hdocument : document ∈ documents) :
    ∃ row ∈ occurrences, row.documentId = document.documentId := by
  have hcount := h.closed.counts document hdocument
  have hpos : 0 < occurrences.countP fun row => row.documentId = document.documentId := by
    rw [hcount]
    refine Nat.pos_of_ne_zero fun hzero => (h.documents_accepted.counts document hdocument).1 ?_
    exact Fin.ext hzero
  obtain ⟨row, hrow, hid⟩ := List.countP_pos_iff.mp hpos
  exact ⟨row, hrow, of_decide_eq_true hid⟩

/-- The documents that a search is limited to are those with a matching occurrence. Without
a filter it is limited to none, and every document has one. -/
theorem eligible_published (h : Publishable unitNorm options documents occurrences vectors)
    (hread : ReadsBack storage readers
      (publishedIndex prims storage options documents occurrences vectors))
    {filters : SearchFilters} (hcomparable : filters.Comparable occurrences) :
    ∃ eligible, (openedIndex prims storage options documents occurrences vectors).eligible readers
        filters = .ok eligible ∧
      ∀ document ∈ documents, eligible.Admits document.documentId ↔
        EligibleRows occurrences filters document.documentId := by
  unfold OpenFastIndex.eligible
  split
  · next hnone =>
    refine ⟨none, rfl, fun document hdocument => iff_of_true (fun _ hids => by cases hids) ?_⟩
    obtain ⟨row, hrow, hid⟩ := h.exists_occurrence hdocument
    obtain ⟨hrelations, hstart, hstop⟩ := hnone
    refine ⟨row, hrow, hid, .inl hrelations, ?_, ?_⟩
    · intro start hmem
      rw [hstart] at hmem
      cases hmem
    · intro stop hmem
      rw [hstop] at hmem
      cases hmem
  · rw [readLookup_published hread]
    refine ⟨_, rfl, fun document _ => ?_⟩
    refine Iff.trans ?_ (mem_eligible_stored h.rows hcomparable)
    exact ⟨fun hadmits => hadmits _ rfl, fun hmem ids hids => by cases hids; exact hmem⟩

end Readers

/-! ### The place of a document -/

section BinarySearch

variable {documents : List FastDocument} {documentId : String}

theorem of_find? {document : FastDocument}
    (h : documents.find? (·.documentId = documentId) = some document) :
    document ∈ documents ∧ document.documentId = documentId := by
  have hid := List.find?_some h
  exact ⟨List.mem_of_find?_eq_some h, of_decide_eq_true hid⟩

/-- Halving keeps the place of the document between the bounds, so the search ends at it,
or with nothing when there is no such document. -/
theorem binarySearch_eq (hascending : documents.Pairwise fun a b => a.documentId < b.documentId)
    {fuel low high : ℕ} (hfuel : high - low < fuel) (hhigh : high ≤ documents.length)
    (hplace : ∀ i document, documents[i]? = some document → document.documentId = documentId →
      low ≤ i ∧ i < high) :
    binarySearch documents documentId fuel low high =
      documents.find? (·.documentId = documentId) := by
  have hlt : ∀ (i j : ℕ) (a b : FastDocument), documents[i]? = some a → documents[j]? = some b →
      i < j → a.documentId < b.documentId := by
    intro i j a b hi hj hij
    obtain ⟨hilt, rfl⟩ := List.getElem?_eq_some_iff.mp hi
    obtain ⟨hjlt, rfl⟩ := List.getElem?_eq_some_iff.mp hj
    exact List.pairwise_iff_getElem.mp hascending i j hilt hjlt hij
  induction fuel generalizing low high with
  | zero => exact absurd hfuel (Nat.not_lt_zero _)
  | succ fuel ih =>
    rw [binarySearch]
    by_cases hempty : high ≤ low
    · -- no place is left
      rw [if_pos hempty]
      refine (List.find?_eq_none.mpr fun document hdocument hid => ?_).symm
      obtain ⟨i, hi⟩ := List.mem_iff_getElem?.mp hdocument
      have hbetween := hplace i document hi (of_decide_eq_true hid)
      omega
    rw [if_neg hempty]
    have hmiddle : (low + high) / 2 < documents.length := by omega
    have hget := List.getElem?_eq_getElem hmiddle
    dsimp only
    rw [hget]
    dsimp only
    by_cases hhit : documents[(low + high) / 2].documentId = documentId
    · rw [if_pos hhit]
      have hfound : (documents.find? fun document => document.documentId = documentId).isSome := by
        rw [List.find?_isSome]
        exact ⟨_, List.getElem_mem hmiddle, decide_eq_true hhit⟩
      obtain ⟨found, hfound⟩ := Option.isSome_iff_exists.mp hfound
      obtain ⟨hmem, hid⟩ := of_find? hfound
      obtain ⟨j, hj⟩ := List.mem_iff_getElem?.mp hmem
      -- ids ascend, so there is one place
      have hsame : (low + high) / 2 = j := by
        rcases Nat.lt_trichotomy ((low + high) / 2) j with hless | heq | hmore
        · exact absurd (hhit.trans hid.symm) (hlt _ _ _ _ hget hj hless).ne
        · exact heq
        · exact absurd (hid.trans hhit.symm) (hlt _ _ _ _ hj hget hmore).ne
      rw [hfound, ← hj, ← hsame, hget]
    rw [if_neg hhit]
    split
    · next hless =>
      refine ih (by omega) hhigh fun i document hi hid => ⟨?_, (hplace i document hi hid).2⟩
      by_contra hle
      rcases (Nat.lt_or_eq_of_le (Nat.le_of_lt_succ (Nat.lt_of_not_le hle))) with hi' | rfl
      · have hbelow := hlt _ _ _ _ hi hget hi'
        rw [hid] at hbelow
        exact absurd hless hbelow.not_gt
      · rw [hget] at hi
        exact hhit (Option.some.inj hi ▸ hid)
    · next hmore =>
      refine ih (by omega) (by omega) fun i document hi hid => ⟨(hplace i document hi hid).1, ?_⟩
      by_contra hle
      rcases Nat.lt_or_eq_of_le (Nat.le_of_not_lt hle) with hi' | heq
      · have habove := hlt _ _ _ _ hget hi hi'
        rw [hid] at habove
        exact hmore habove
      · rw [← heq, hget] at hi
        exact hhit (Option.some.inj hi ▸ hid)

/-- The place of a document is where its id is found. -/
theorem findIdx?_documentId (hnodup : (documents.map (·.documentId)).Nodup) {i : ℕ}
    {document : FastDocument} (hi : documents[i]? = some document)
    (hid : document.documentId = documentId) :
    documents.findIdx? (·.documentId = documentId) = some i := by
  obtain ⟨hlt, rfl⟩ := List.getElem?_eq_some_iff.mp hi
  rw [List.findIdx?_eq_some_iff_getElem]
  refine ⟨hlt, decide_eq_true hid, fun j hj hsame => ?_⟩
  have heq := List.inj_on_of_nodup_map hnodup (List.getElem_mem (hj.trans hlt))
    (List.getElem_mem hlt) ((of_decide_eq_true hsame).trans hid.symm)
  have hplace := (List.Nodup.getElem_inj_iff (List.Nodup.of_map _ hnodup)).mp heq
  omega

end BinarySearch

section Readers

variable {prims : Pipeline.Primitives} {storage : Storage} {readers : FileReaders}
  {unitNorm : List F32 → Bool} {options : IndexAssemblyOptions} {documents : List FastDocument}
  {occurrences : List FastOccurrence} {vectors : List OrderedVector}

/-- Both formats find a document at its place among the rows: the one by halving the row
file, the other in its table. -/
theorem documentOrdinal_published (h : Publishable unitNorm options documents occurrences vectors)
    (hread : ReadsBack storage readers
      (publishedIndex prims storage options documents occurrences vectors))
    (documentId : String) :
    (openedIndex prims storage options documents occurrences vectors).documentOrdinal prims readers
        documentId = .ok (documents.findIdx? (·.documentId = documentId)) := by
  have hplace : ∀ document, documents.find? (·.documentId = documentId) = some document →
      documents.findIdx? (·.documentId = documentId) = some (document.vectorOrdinal : ℕ) := by
    intro document hfound
    obtain ⟨hmem, hid⟩ := of_find? hfound
    obtain ⟨i, hi⟩ := List.mem_iff_getElem?.mp hmem
    rw [h.documents_accepted.ordinals i document hi]
    exact findIdx?_documentId h.ids_nodup hi hid
  have habsent : documents.find? (·.documentId = documentId) = none →
      documents.findIdx? (·.documentId = documentId) = none := by
    intro hnone
    exact List.findIdx?_eq_none_iff.mpr fun document hdocument =>
      Bool.not_eq_true _ ▸ List.find?_eq_none.mp hnone document hdocument
  have hbackend : (openedIndex prims storage options documents occurrences vectors).lexical =
      lexicalBackend documents options.lexicalFormat := rfl
  cases hformat : options.lexicalFormat with
  | jsonV2 =>
    have hsearch := @binarySearch_eq documents documentId h.documents_accepted.ascending
      (documents.length + 1) 0 documents.length (by omega) le_rfl fun i document hi _ =>
        ⟨Nat.zero_le _, (List.getElem?_eq_some_iff.mp hi).1⟩
    rw [OpenFastIndex.documentOrdinal, hbackend, hformat]
    show (OpenFastIndex.readDocuments _ _ _ >>= _) = _
    rw [readDocuments_published h hread, ok_bind, hsearch]
    cases hfound : documents.find? (·.documentId = documentId) with
    | none => rw [habsent hfound]; rfl
    | some document => rw [hplace document hfound]; rfl
  | sqliteV3 =>
    rw [OpenFastIndex.documentOrdinal, hbackend, hformat]
    show (readFile _ >>= _) = _
    rw [readTables_published hread hformat]
    show Except.ok (((documents.map FastDocument.lexicalRow).find? _).map _) = _
    rw [List.find?_map]
    cases hfound : documents.find? (·.documentId = documentId) with
    | none =>
      rw [habsent hfound]
      exact congrArg (fun row : Option FastDocument => Except.ok
        ((row.map FastDocument.lexicalRow).map (·.documentOrdinal))) hfound
    | some document =>
      rw [hplace document hfound]
      exact congrArg (fun row : Option FastDocument => Except.ok
        ((row.map FastDocument.lexicalRow).map (·.documentOrdinal))) hfound

/-- A stored vector passes the check of a query vector. -/
theorem validateQueryVector_published {𝕜 : Type} {scoring : Scoring 𝕜}
    (h : Publishable unitNorm options documents occurrences vectors) (hreads : scoring.Reads unitNorm)
    {vector : OrderedVector} (hvector : vector ∈ vectors) :
    validateQueryVectorValues scoring vector.values options.embeddingProfile.dimensions
      options.embeddingProfile.normalization = .ok () := by
  obtain ⟨hlength, hfinite, hnorm⟩ := h.vectors_accepted.accepted vector hvector
  simp only [validateQueryVectorValues, bind_eq_ok, exists_unit, throwIf_eq_ok, not_or, not_not,
    not_exists, not_and, hreads.unitNorm_eq]
  exact ⟨⟨hlength, hfinite⟩, hnorm⟩

/-- The vector of a document is the one that was given for its place. -/
theorem documentVector_opened {𝕜 : Type} {scoring : Scoring 𝕜}
    (h : Publishable unitNorm options documents occurrences vectors) (hreads : scoring.Reads unitNorm)
    (hread : ReadsBack storage readers
      (publishedIndex prims storage options documents occurrences vectors))
    {documentId : String} (hid : documentId ≠ "" ∧ '\x00' ∉ documentId.toList) :
    (openedIndex prims storage options documents occurrences vectors).documentVector prims readers
        scoring documentId =
      .ok ((documents.findIdx? (·.documentId = documentId)).bind fun ordinal =>
        vectors[ordinal]?.map (·.values)) := by
  have hvalid : ¬ (documentId = "" ∨ '\x00' ∈ documentId.toList) := not_or.mpr hid
  rw [OpenFastIndex.documentVector, throwIf_bind_of_not hvalid, documentOrdinal_published h hread,
    ok_bind]
  cases hplace : documents.findIdx? (·.documentId = documentId) with
  | none => rfl
  | some ordinal =>
    have hlt : ordinal < vectors.length := by
      rw [h.vector_count]
      exact (List.findIdx?_eq_some_iff_getElem.mp hplace).1
    have hvector := List.getElem?_eq_getElem hlt
    have hcount : ¬ (openedIndex prims storage options documents occurrences
        vectors).manifest.vectors.count ≤ ordinal := not_le.mpr hlt
    have hrow : readVectorRow (openedIndex prims storage options documents occurrences
        vectors).vectors (openedIndex prims storage options documents occurrences
          vectors).manifest.vectors.dimensions ordinal = .ok vectors[ordinal].values :=
      readVectorRow_published h hread.vectors_lt hvector
    have hbound := validateQueryVector_published h hreads (List.getElem_mem hlt)
    dsimp only
    rw [OpenFastIndex.readProfileBoundVector, throwIf_bind_of_not hcount, hrow, ok_bind]
    show (orThrowAs (validateQueryVectorValues scoring vectors[ordinal].values
      options.embeddingProfile.dimensions options.embeddingProfile.normalization) _ >>= _) >>= _ = _
    rw [hbound, Option.bind_some, hvector]
    rfl

/-! ### The rankings -/

section Rankings

variable {𝕜 : Type} [Field 𝕜] [LinearOrder 𝕜] {scoring : Scoring 𝕜} {ln : 𝕜 → 𝕜}

omit [Field 𝕜] in
/-- The comparison of the search orders by the key. -/
theorem isLE_compare_rankKey (left right : String × 𝕜) :
    ((Ord.compare right.2 left.2).then (Ord.compare left.1 right.1)).isLE =
      decide (rankKey left ≤ rankKey right) := by
  rw [Bool.eq_iff_iff, decide_eq_true_iff, rankKey, rankKey, Prod.Lex.toLex_le_toLex]
  simp only [OrderDual.toDual_lt_toDual, EmbeddingLike.apply_eq_iff_eq]
  rcases lt_trichotomy right.2 left.2 with hlt | heq | hgt
  · rw [compare_lt_iff_lt.mpr hlt]
    simp only [hlt, true_or, iff_true]
    rfl
  · rw [compare_eq_iff_eq.mpr heq, heq]
    simp only [lt_irrefl, true_and, false_or]
    show (Ord.compare left.1 right.1).isLE = true ↔ _
    rw [Ordering.isLE_iff_ne_gt]
    exact compare_gt_iff_gt.not.trans not_lt
  · rw [compare_gt_iff_gt.mpr hgt]
    simp only [hgt.not_gt, hgt.ne, false_and, or_self, iff_false]
    exact Bool.false_ne_true

theorem sortScores_bm25 (scores : Scores 𝕜) :
    sortScores (scoring.bm25 ln) scores = Ranking.sortBy rankKey scores := by
  have hcompare : (fun left right : String × 𝕜 =>
      (((scoring.bm25 ln).compare right.2 left.2).then (Ord.compare left.1 right.1)).isLE) =
      fun left right => decide (rankKey left ≤ rankKey right) := by
    ext left right
    rw [← isLE_compare_rankKey left right]
    rfl
  unfold sortScores Ranking.sortBy
  rw [hcompare]

/-- The score of a document is the product of its vector with the query. -/
theorem denseScore_published (h : Publishable unitNorm options documents occurrences vectors)
    (hreads : scoring.Reads unitNorm) (hread : ReadsBack storage readers
      (publishedIndex prims storage options documents occurrences vectors))
    {pair : FastDocument × OrderedVector} (hpair : pair ∈ documents.zip vectors)
    (query : List F32) :
    (openedIndex prims storage options documents occurrences vectors).denseScore
        (scoring.bm25 ln) query pair.1 =
      .ok (pair.1.documentId, scoring.dot pair.2.values query) := by
  obtain ⟨i, hi⟩ := List.mem_iff_getElem?.mp hpair
  obtain ⟨hdocument, hvector⟩ := List.getElem?_zip_eq_some.mp hi
  obtain ⟨-, hfinite, hnorm⟩ := h.vectors_accepted.accepted pair.2 (List.mem_of_getElem? hvector)
  have hrow : readVectorRow (openedIndex prims storage options documents occurrences
      vectors).vectors (openedIndex prims storage options documents occurrences
        vectors).manifest.vectors.dimensions pair.1.vectorOrdinal = .ok pair.2.values := by
    rw [h.documents_accepted.ordinals i pair.1 hdocument]
    exact readVectorRow_published h hread.vectors_lt hvector
  have hvalues : ¬ ∃ entry ∈ pair.2.values.zip query, ¬ entry.1.IsFinite := by
    rintro ⟨entry, hentry, hinfinite⟩
    exact hinfinite (hfinite entry.1 (List.of_mem_zip hentry).1)
  have hscore : ¬ (¬ (scoring.bm25 ln).isFinite ((scoring.bm25 ln).dot pair.2.values query) ∨
      (openedIndex prims storage options documents occurrences
        vectors).manifest.embeddingProfile.normalization = "l2" ∧
        ¬ (scoring.bm25 ln).unitNorm pair.2.values) := by
    have hunit : (scoring.bm25 ln).unitNorm = unitNorm := hreads.unitNorm_eq
    rintro (hinfinite | ⟨hl2, hlong⟩)
    · exact hinfinite (hreads.finite_dot _ _)
    · rw [hunit] at hlong
      exact hlong (hnorm hl2)
  rw [OpenFastIndex.denseScore, hrow, ok_bind, throwIf_bind_of_not hvalues,
    throwIf_bind_of_not hscore]
  rfl

theorem denseScores_published (h : Publishable unitNorm options documents occurrences vectors)
    (hreads : scoring.Reads unitNorm) (hread : ReadsBack storage readers
      (publishedIndex prims storage options documents occurrences vectors))
    {filters : SearchFilters} {eligible : EligibleDocuments}
    (heligible : ∀ document ∈ documents, eligible.Admits document.documentId ↔
      EligibleRows occurrences filters document.documentId)
    (query : List F32) (excluded : List String) :
    (openedIndex prims storage options documents occurrences vectors).denseScores
        (scoring.bm25 ln) documents query eligible excluded =
      .ok (rankByVectors scoring documents occurrences vectors filters excluded query) := by
  have hzip : (documents.zip vectors).map Prod.fst = documents :=
    List.map_fst_zip (by rw [h.vector_count])
  -- the documents that are scored, each with its vector
  have hscored : (documents.filter fun document =>
      eligible.Admits document.documentId ∧ document.documentId ∉ excluded) =
      ((documents.zip vectors).filter fun pair => EligibleRows occurrences filters
        pair.1.documentId ∧ pair.1.documentId ∉ excluded).map Prod.fst := by
    conv_lhs => rw [← hzip]
    rw [List.filter_map]
    refine congrArg _ (List.filter_congr fun pair hpair => ?_)
    have hdocument := (List.of_mem_zip hpair).1
    exact decide_eq_decide.mpr (and_congr_left fun _ => heligible pair.1 hdocument)
  have hscores : (((documents.zip vectors).filter fun pair => EligibleRows occurrences filters
      pair.1.documentId ∧ pair.1.documentId ∉ excluded).map Prod.fst).mapM
        ((openedIndex prims storage options documents occurrences vectors).denseScore
          (scoring.bm25 ln) query) =
      .ok (((documents.zip vectors).filter fun pair => EligibleRows occurrences filters
        pair.1.documentId ∧ pair.1.documentId ∉ excluded).map fun pair =>
          (pair.1.documentId, scoring.dot pair.2.values query)) := by
    rw [List.mapM_map]
    refine mapM_eq_map fun pair hpair => ?_
    exact denseScore_published h hreads hread (List.mem_filter.mp hpair).1 query
  rw [OpenFastIndex.denseScores, hscored, hscores, ok_bind, sortScores_bm25]
  rfl

/-- The terms rank alike in both formats: where the JSON form is read, its documents are
those of the row file. -/
theorem lexicalScores_published [IsStrictOrderedRing 𝕜]
    (h : Publishable unitNorm options documents occurrences vectors)
    (hln : ∀ x, 1 < x → 0 < ln x) (hread : ReadsBack storage readers
      (publishedIndex prims storage options documents occurrences vectors))
    {filters : SearchFilters} {eligible : EligibleDocuments}
    (heligible : ∀ document ∈ documents, eligible.Admits document.documentId ↔
      EligibleRows occurrences filters document.documentId)
    (queryText : String) :
    (openedIndex prims storage options documents occurrences vectors).lexicalScores prims readers
        (scoring.bm25 ln) queryText eligible =
      .ok (rankByTerms ln documents occurrences filters queryText) := by
  have hranking : sortScores (scoring.bm25 ln)
      (scoredDocuments ln documents (distinctSorted (tokenize queryText)) eligible) =
      rankByTerms ln documents occurrences filters queryText := by
    have hfilter : documents.filter (fun document => eligible.Admits document.documentId) =
        documents.filter fun document => EligibleRows occurrences filters document.documentId :=
      List.filter_congr fun document hdocument => decide_eq_decide.mpr (heligible document hdocument)
    rw [sortScores_bm25, scoredDocuments, hfilter, rankByTerms]
  have hbackend : (openedIndex prims storage options documents occurrences vectors).lexical =
      lexicalBackend documents options.lexicalFormat := rfl
  cases hformat : options.lexicalFormat with
  | jsonV2 =>
    have hids : (documents.map describedLexicalDocument).map (·.documentId) =
        documents.map (·.documentId) := by
      rw [List.map_map]
      rfl
    have hlength : (distinctSorted (documents.map (·.documentId))).length = documents.length := by
      have hkeys : ((documents.map (·.documentId)).map fun text => (text, ())).map Prod.fst =
          documents.map (·.documentId) := by
        rw [List.map_map]
        exact List.map_id _
      have hsize := SortedMap.size_ofList_eq_length_iff.mpr (hkeys ▸ h.ids_nodup)
      rw [List.length_map, List.length_map] at hsize
      rw [distinctSorted, SortedMap.keys, List.length_map]
      exact hsize
    rw [OpenFastIndex.lexicalScores, hbackend, hformat]
    dsimp only [lexicalBackend]
    rw [readJson_published hread hformat, readFile, orThrow, ok_bind,
      readDocuments_published h hread, ok_bind]
    dsimp only
    rw [hids, List.length_map, LexicalJson.scores_written, hranking]
    refine throwIf_bind_of_not ?_
    rintro (hbad | hbad | hbad | hbad)
    · exact hbad rfl
    · exact hbad rfl
    · exact hbad hlength
    · exact hbad rfl
  | sqliteV3 =>
    rw [OpenFastIndex.lexicalScores, hbackend, hformat]
    dsimp only [lexicalBackend]
    rw [readTables_published hread hformat, readFile, orThrow, ok_bind, ← hranking]
    exact LexicalTables.scores_written hln (h.writable hformat) h.documents_accepted.ascending _ _

end Rankings

/-! ### The hits -/

/-- What a list of pairs gives for a key, when every pair says what a function says. -/
theorem lookup_of_forall {β : Type} {pairs : List (String × β)} {f : String → β}
    (hpairs : ∀ pair ∈ pairs, pair.2 = f pair.1) {key : String}
    (hkey : ∃ value, (key, value) ∈ pairs) : pairs.lookup key = some (f key) := by
  obtain ⟨value, hmem⟩ := hkey
  have hsome : (pairs.lookup key).isSome :=
    List.lookup_isSome_iff.mpr ⟨_, hmem, beq_self_eq_true _⟩
  obtain ⟨found, hfound⟩ := Option.isSome_iff_exists.mp hsome
  obtain ⟨before, after, rfl, -⟩ := List.lookup_eq_some_iff.mp hfound
  exact hfound.trans (congrArg some (hpairs (key, found)
    (List.mem_append_right _ (List.mem_cons_self ..))))

/-- The texts of some documents are theirs. -/
theorem semanticTexts_published (h : Publishable unitNorm options documents occurrences vectors)
    (hread : ReadsBack storage readers
      (publishedIndex prims storage options documents occurrences vectors)) {ids : List String}
    (hids : ∀ id ∈ ids, id ∈ documents.map (·.documentId)) :
    ∃ texts, (openedIndex prims storage options documents occurrences vectors).semanticTexts prims
        readers ids = .ok texts ∧
      ∀ id ∈ ids, texts.reverse.lookup id = some (textOf documents id) := by
  have htext : ∀ document ∈ documents,
      textOf documents document.documentId = document.semanticText := by
    intro document hdocument
    have hfind := Tables.UniqueOn.find?_eq h.ids_nodup hdocument
    rw [textOf, hfind]
    rfl
  have hbackend : (openedIndex prims storage options documents occurrences vectors).lexical =
      lexicalBackend documents options.lexicalFormat := rfl
  cases hformat : options.lexicalFormat with
  | jsonV2 =>
    rw [OpenFastIndex.semanticTexts, hbackend, hformat]
    dsimp only [lexicalBackend]
    rw [readDocuments_published h hread]
    refine ⟨_, rfl, fun id hid => lookup_of_forall (fun pair hpair => ?_) ?_⟩
    · obtain ⟨document, hdocument, rfl⟩ := List.mem_map.mp (List.mem_reverse.mp hpair)
      exact (htext document (List.mem_filter.mp hdocument).1).symm
    · obtain ⟨document, hdocument, rfl⟩ := List.mem_map.mp (hids id hid)
      exact ⟨document.semanticText, List.mem_reverse.mpr (List.mem_map.mpr ⟨document,
        List.mem_filter.mpr ⟨hdocument, decide_eq_true hid⟩, rfl⟩)⟩
  | sqliteV3 =>
    rw [OpenFastIndex.semanticTexts, hbackend, hformat]
    dsimp only [lexicalBackend]
    rw [readTables_published hread hformat]
    -- every id has a row in the table, and the row has the text of the document
    have hrow : ∀ id ∈ ids, (writtenLexicalTables prims.sha256 documents).stored.tables.semanticText
        id = .ok (id, textOf documents id) := by
      intro id hid
      obtain ⟨document, hdocument, rfl⟩ := List.mem_map.mp (hids id hid)
      have hfind : (documents.map FastDocument.lexicalRow).find?
          (·.documentId = document.documentId) = some document.lexicalRow := by
        have hfind := Tables.UniqueOn.find?_eq h.ids_nodup hdocument
        rw [List.find?_map]
        exact congrArg (Option.map FastDocument.lexicalRow) hfind
      rw [LexicalTables.semanticText, htext document hdocument]
      show (orThrow ((documents.map FastDocument.lexicalRow).find? _) _ >>= _) = _
      rw [hfind]
      rfl
    refine ⟨ids.map fun id => (id, textOf documents id), mapM_eq_map hrow, fun id hid => ?_⟩
    refine lookup_of_forall (fun pair hpair => ?_) ⟨textOf documents id, ?_⟩
    · obtain ⟨_, -, rfl⟩ := List.mem_map.mp (List.mem_reverse.mp hpair)
      rfl
    · exact List.mem_reverse.mpr (List.mem_map.mpr ⟨id, hid, rfl⟩)

/-- The occurrences of some documents, as the second query gives them. -/
theorem matchingOccurrences_published
    (h : Publishable unitNorm options documents occurrences vectors) (hread : ReadsBack storage
      readers (publishedIndex prims storage options documents occurrences vectors))
    {filters : SearchFilters} (hcomparable : filters.Comparable occurrences) (ids : List String) :
    ∃ matched, (openedIndex prims storage options documents occurrences vectors).matchingOccurrences
        readers ids filters = .ok matched ∧
      ∀ id ∈ ids, matched.get? id =
        summarize ((matchingRows occurrences filters id).map FastOccurrence.storedRow) := by
  unfold OpenFastIndex.matchingOccurrences
  split
  · next hnil =>
    subst hnil
    exact ⟨_, rfl, fun id hid => by cases hid⟩
  · have hoccurrenceIds : ((occurrences.map FastOccurrence.storedRow).map
        (·.occurrenceId)).Nodup := by
      rw [List.map_map]
      exact h.closed.occurrence_ids
    have htimed : ∀ row ∈ occurrences.map FastOccurrence.storedRow, row.Timed := by
      intro row hrow
      obtain ⟨occurrence, hoccurrence, rfl⟩ := List.mem_map.mp hrow
      exact timed_storedRow (h.rows occurrence hoccurrence)
    obtain ⟨matched, hrun, hmatched⟩ := @readMatchingOccurrences_eq _ ids filters
      hoccurrenceIds htimed
    rw [readLookup_published hread, readFile, orThrow, ok_bind]
    refine ⟨matched, hrun, fun id hid => ?_⟩
    rw [hmatched id hid, passingRows_stored h.rows hcomparable]

/-- The hit that is described is the one the rows give, for an eligible document. -/
theorem describeHit_published {𝕜 : Type} (hrows : ∀ row ∈ occurrences, OccurrenceAccepted
      options.source row) {filters : SearchFilters} {texts : List (String × String)}
    {matched : SortedMap String MatchedOccurrences} {entry : String × 𝕜}
    (htext : texts.reverse.lookup entry.1 = some (textOf documents entry.1))
    (hmatched : matched.get? entry.1 =
      summarize ((matchingRows occurrences filters entry.1).map FastOccurrence.storedRow))
    (heligible : EligibleRows occurrences filters entry.1)
    (dense lexical : Option (Scores 𝕜)) (index : ℕ) :
    describeHit dense lexical texts matched (entry, index) =
      .ok (rowHit documents occurrences filters dense lexical index entry) := by
  have hne := heligible.matchingRows_ne_nil
  have hsummary : matched.get? entry.1 = some
      ⟨(matchingRows occurrences filters entry.1).length,
        ((matchingRows occurrences filters entry.1).take maxReturnedOccurrencesPerHit).map
          FastOccurrence.evidence⟩ := by
    rw [hmatched, summarize, if_neg (by rw [List.map_eq_nil_iff]; exact hne), List.length_map,
      ← List.map_take, List.map_map]
    refine congrArg some (congrArg _ (List.map_congr_left fun row hrow => ?_))
    exact storedRow_evidence (hrows row (mem_matchingRows.mp (List.mem_of_mem_take hrow)).1)
  rw [describeHit, htext, hsummary, rowHit]
  refine congrArg Except.ok ?_
  simp only [Option.bind_some, Option.any_some, List.length_map, List.length_take, Option.map_some,
    Option.getD_some, SearchHit.mk.injEq, true_and, and_true]
  exact decide_eq_decide.mpr min_eq_right_iff

/-- The first of a ranking of eligible documents, with their hits. -/
theorem selectRanked_published {𝕜 : Type} {scores : Scores 𝕜} {filters : SearchFilters}
    (h : Publishable unitNorm options documents occurrences vectors) (hread : ReadsBack storage
      readers (publishedIndex prims storage options documents occurrences vectors))
    (hcomparable : filters.Comparable occurrences)
    (hscores : ScoresOf (documents.filter fun document =>
      EligibleRows occurrences filters document.documentId) scores)
    (topN : ℕ) (dense lexical : Option (Scores 𝕜)) :
    (openedIndex prims storage options documents occurrences vectors).selectRanked prims readers
        filters topN dense lexical scores =
      .ok ((scores.take topN).mapIdx (rowHit documents occurrences filters dense lexical)) := by
  have hentries : ∀ entry ∈ scores.take topN, entry.1 ∈ documents.map (·.documentId) ∧
      EligibleRows occurrences filters entry.1 := by
    intro entry hentry
    obtain ⟨document, hdocument, hid⟩ := List.mem_map.mp (hscores entry (List.mem_of_mem_take hentry))
    obtain ⟨hmem, heligible⟩ := List.mem_filter.mp hdocument
    rw [← hid]
    exact ⟨List.mem_map_of_mem hmem, of_decide_eq_true heligible⟩
  have hselected : ∀ entry ∈ scores.take topN,
      entry.1 ∈ distinctSorted ((scores.take topN).map Prod.fst) := fun entry hentry =>
    mem_distinctSorted.mpr (List.mem_map_of_mem hentry)
  have hids : ∀ id ∈ distinctSorted ((scores.take topN).map Prod.fst),
      id ∈ documents.map (·.documentId) := by
    intro id hid
    obtain ⟨entry, hentry, rfl⟩ := List.mem_map.mp (mem_distinctSorted.mp hid)
    exact (hentries entry hentry).1
  obtain ⟨texts, htexts, htext⟩ := semanticTexts_published h hread hids
  obtain ⟨matched, hmatched, hsummaries⟩ := matchingOccurrences_published h hread hcomparable
    (distinctSorted ((scores.take topN).map Prod.fst))
  rw [OpenFastIndex.selectRanked, htexts, ok_bind, hmatched, ok_bind, List.mapIdx_eq_zipIdx_map]
  refine mapM_eq_map fun entry hentry => ?_
  have hmem : entry.1 ∈ scores.take topN := List.fst_mem_of_mem_zipIdx hentry
  exact describeHit_published h.rows (htext _ (hselected _ hmem)) (hsummaries _ (hselected _ hmem))
    (hentries _ hmem).2 dense lexical entry.2

end Readers

/-! ### An index of one document -/

/-- Files that are not looked into. -/
def sampleStorage : Storage := ⟨fun _ => [], fun _ => [], fun _ => [], fun _ => []⟩

/-- Readers that find what an index holds. -/
def FastIndex.readers (index : FastIndex) : FileReaders where
  rowCount := fun _ => some index.documents.flatten.length
  documents := fun _ => some index.documents.flatten
  lookup := fun _ => some index.occurrenceLookup.stored
  lexicalJson := fun _ => match index.lexical with
    | .json content => some content
    | .sqlite _ => none
  lexicalTables := fun _ => match index.lexical with
    | .json _ => none
    | .sqlite tables => some tables.stored

/-- The document was seen at five milliseconds. -/
def sampleSeen : SampleStreams := oneDocument "d" "o" "e" "s" (some 5)

/-- The index of the document, by one of the two writers. -/
structure SampleIndex (index : FastIndex) : Prop where
  publishes : Publishes sampleAssemblyPrimitives sampleStorage (fun _ => true) ⟨none, false⟩
    (some "index") sampleSeen.documents sampleSeen.occurrences sampleSeen.vectors index
  reads : ReadsBack sampleStorage index.readers index
  profile : index.manifest.embeddingProfile = sampleAssemblyOptions.embeddingProfile

theorem sampleSeen_admissible (format : LexicalFormat) :
    Admissible format sampleSeen.documents sampleSeen.occurrences := by
  have htokens : (sampleFastDocument "d").tokens.length ≤ 8 := by decide +kernel
  refine ⟨List.cons_ne_nil _ _, fun document hdocument => ?_, fun row hrow => ?_, ?_, ?_,
    Nat.one_lt_two_pow (by decide), Nat.one_lt_two_pow (by decide), ?_, fun _ => ⟨Nat.one_le_two_pow,
      ?_⟩⟩
  · obtain rfl := List.mem_singleton.mp hdocument
    decide
  · obtain rfl := List.mem_singleton.mp hrow
    decide
  · intro row hrow time htime
    obtain rfl := List.mem_singleton.mp hrow
    obtain rfl := Option.some.inj htime
    decide
  · intro document hdocument
    obtain rfl := List.mem_singleton.mp hdocument
    decide
  · exact htokens.trans_lt (by decide)
  · intro document hdocument
    obtain rfl := List.mem_singleton.mp hdocument
    exact htokens.trans_lt (by decide)

/-- The options of the two writers. -/
def sampleFormatOptions (format : LexicalFormat) : IndexAssemblyOptions where
  source := sampleAssemblyOptions.source
  buildScope := sampleAssemblyOptions.buildScope
  embeddingProfile := sampleAssemblyOptions.embeddingProfile
  lexicalFormat := format
  pipelineProvenance := none
  testOnly := false

/-- Both writers publish the index. -/
theorem exists_sampleIndex (format : LexicalFormat) : ∃ index, SampleIndex index := by
  have hcomplete : sampleSeen.Complete := oneDocument_complete ..
  have hready : Ready ⟨none, false⟩ (some "index") (sampleFormatOptions format) :=
    ⟨rfl, hcomplete.ready.identity, hcomplete.ready.name, rfl⟩
  obtain ⟨index, hassembled⟩ := (@assembleFastIndex_ok_iff sampleAssemblyPrimitives sampleStorage
    (fun _ => true) (sampleSeen.documents.map .ok) (sampleSeen.occurrences.map .ok)
    (sampleSeen.vectors.map .ok) (sampleFormatOptions format)).mpr ⟨_, _, _, rfl, rfl, rfl,
      hcomplete.closed, hcomplete.source, hcomplete.vectors_valid fun _ => true,
      sampleSeen_admissible format⟩
  have hwritten := @writeFastIndex_of_ready sampleAssemblyPrimitives sampleStorage (fun _ => true)
    (sampleSeen.documents.map .ok) (sampleSeen.occurrences.map .ok) (sampleSeen.vectors.map .ok)
    _ _ _ hready
  rw [hassembled] at hwritten
  have hpublishes : Publishes sampleAssemblyPrimitives sampleStorage (fun _ => true) ⟨none, false⟩
      (some "index") sampleSeen.documents sampleSeen.occurrences sampleSeen.vectors index := by
    cases format with
    | jsonV2 => exact .jsonV2 _ _ _ hwritten
    | sqliteV3 => exact .sqliteV3 _ _ _ hwritten
  obtain ⟨hpublishable, hindex⟩ := assembleFastIndex_published rfl (fun _ h => by cases h)
    (assembled_of_written hwritten).1 hassembled
  have hdocuments : index.documents.flatten = sampleSeen.documents := by
    rw [hindex]
    exact RowWriter.flatten_close_ofRows sampleSeen.documents
  have hoccurrences : index.occurrences.flatten = sampleSeen.occurrences := by
    rw [hindex]
    exact RowWriter.flatten_close_ofRows sampleSeen.occurrences
  refine ⟨index, hpublishes, ⟨rfl, ?_, rfl, rfl, ?_, ?_, ?_⟩, ?_⟩
  · show some index.documents.flatten.length = some index.occurrences.flatten.length
    rw [hdocuments, hoccurrences]
    rfl
  · intro content hcontent
    rw [FastIndex.readers, hcontent]
  · intro tables htables
    rw [FastIndex.readers, htables]
  · have hlength := @length_publishedVectors sampleAssemblyPrimitives _ _ _ _ _ hpublishable
    rw [hindex]
    exact hlength.trans_lt (show 64 + 1 * 1 * 4 < 2 ^ 64 by decide)
  · rw [hindex]
    rfl

/-- The bounds of a sample search are small. -/
theorem sampleSeen_comparable (filters : SearchFilters) :
    filters.Comparable sampleSeen.occurrences := by
  refine .inr fun row hrow time htime => ?_
  obtain rfl := List.mem_singleton.mp hrow
  obtain rfl := Option.some.inj htime
  decide

theorem sampleScoring_reads : sampleScoring.Reads fun _ => true := ⟨rfl, fun _ _ => rfl⟩

/-! ### The search -/

section Search

variable {𝕜 : Type} [Field 𝕜] [LinearOrder 𝕜] {scoring : Scoring 𝕜} {ln : 𝕜 → 𝕜}
  {prims : Pipeline.Primitives} {storage : Storage} {readers : FileReaders}
  {unitNorm : List F32 → Bool} {options : IndexAssemblyOptions} {documents : List FastDocument}
  {occurrences : List FastOccurrence} {vectors : List OrderedVector} {filters : SearchFilters}

omit [Field 𝕜] in
theorem rankByVectors_scoresOf (excluded : List String) (query : List F32) :
    ScoresOf (documents.filter fun document => EligibleRows occurrences filters document.documentId)
      (rankByVectors scoring documents occurrences vectors filters excluded query) := by
  intro entry hentry
  obtain ⟨pair, hpair, rfl⟩ := List.mem_map.mp (Ranking.mem_sortBy.mp hentry)
  obtain ⟨hmem, heligible⟩ := List.mem_filter.mp hpair
  exact List.mem_map_of_mem (List.mem_filter.mpr ⟨(List.of_mem_zip hmem).1,
    decide_eq_true (of_decide_eq_true heligible).1⟩)

theorem rankByTerms_scoresOf (queryText : String) :
    ScoresOf (documents.filter fun document => EligibleRows occurrences filters document.documentId)
      (rankByTerms ln documents occurrences filters queryText) := by
  intro entry hentry
  obtain ⟨document, hdocument, hscored⟩ := List.mem_filterMap.mp (Ranking.mem_sortBy.mp hentry)
  dsimp only at hscored
  split at hscored
  · rw [← congrArg Prod.fst (Option.some.inj hscored)]
    exact List.mem_map_of_mem hdocument
  · cases hscored

/-- A search that is not refused answers with the first of the hits that the rows give. -/
theorem searchInternal_published [IsStrictOrderedRing 𝕜]
    (h : Publishable unitNorm options documents occurrences vectors) (hln : ∀ x, 1 < x → 0 < ln x)
    (hreads : scoring.Reads unitNorm) (hread : ReadsBack storage readers
      (publishedIndex prims storage options documents occurrences vectors))
    (hcomparable : filters.Comparable occurrences) {topN : ℕ} (htop : ¬ (topN = 0 ∨ 100 < topN))
    (hfilters : ¬ filters.Invalid) {mode : SearchMode} {queryVector : QueryVectorInput}
    {query : List F32} (hquery : mode.UsesVector →
      (openedIndex prims storage options documents occurrences vectors).queryValues
        (scoring.bm25 ln) queryVector = .ok query)
    (queryText : String) (excluded : List String) :
    (openedIndex prims storage options documents occurrences vectors).searchInternal prims readers
        (scoring.bm25 ln) mode queryText queryVector filters topN excluded =
      .ok (rankRows scoring ln documents occurrences vectors mode filters topN excluded queryText
        query) := by
  obtain ⟨eligible, hrun, heligible⟩ := eligible_published h hread hcomparable
  have hdense := @denseScores_published _ _ _ _ _ _ _ _ _ _ _ scoring ln h hreads hread _ _ heligible
    query excluded
  have hlexical := @lexicalScores_published _ _ _ _ _ _ _ _ _ _ _ scoring ln _ h hln hread _ _
    heligible queryText
  have hvectors := @rankByVectors_scoresOf _ _ scoring documents occurrences vectors filters excluded
    query
  have hterms := @rankByTerms_scoresOf _ _ _ ln documents occurrences filters queryText
  rw [OpenFastIndex.searchInternal, throwIf_bind_of_not htop, throwIf_bind_of_not hfilters, hrun,
    ok_bind]
  cases mode with
  | dense =>
    dsimp only
    rw [hquery (.inl rfl), ok_bind, readDocuments_published h hread, ok_bind, hdense, ok_bind]
    exact selectRanked_published h hread hcomparable hvectors _ _ _
  | lexical =>
    dsimp only
    rw [hlexical, ok_bind]
    exact selectRanked_published h hread hcomparable hterms _ _ _
  | fused =>
    dsimp only
    rw [hquery (.inr rfl), ok_bind, readDocuments_published h hread, ok_bind, hdense, ok_bind,
      hlexical, ok_bind]
    exact selectRanked_published h hread hcomparable
      (reciprocalRankFusion_scoresOf _ hvectors hterms) _ _ _

variable {directory : OutputDirectory} {outputName : Option String} {index : FastIndex}

/-- A published index is opened, and is then the index of its rows. -/
theorem Publishes.opens (hpublishes : Publishes prims storage unitNorm directory outputName documents
      occurrences vectors index) (hread : ReadsBack storage readers index) :
    ∃ options, Publishable unitNorm options documents occurrences vectors ∧
      index = publishedIndex prims storage options documents occurrences vectors ∧
      OpenFastIndex.open prims readers (index.directory storage) =
        .ok (openedIndex prims storage options documents occurrences vectors) := by
  obtain ⟨options, h, rfl⟩ := hpublishes.describes
  exact ⟨options, h, rfl, open_publishedIndex h hread⟩

omit [Field 𝕜] [LinearOrder 𝕜] in
/-- **What is written is what is found.** A published index is opened, and for every id that
can be asked for it gives back, float for float, the vector that was written for the place
of that document, or nothing when no document has the id. -/
theorem documentVector_published (hreads : scoring.Reads unitNorm)
    (hpublishes : Publishes prims storage unitNorm directory outputName documents occurrences vectors
      index) (hread : ReadsBack storage readers index) :
    ∃ opened, OpenFastIndex.open prims readers (index.directory storage) = .ok opened ∧
      ∀ documentId, documentId ≠ "" → '\x00' ∉ documentId.toList →
        ((∀ (i : ℕ) (document : FastDocument) (vector : OrderedVector),
            documents[i]? = some document → vectors[i]? = some vector →
            document.documentId = documentId →
            opened.documentVector prims readers scoring documentId = .ok (some vector.values)) ∧
          (documentId ∉ documents.map (·.documentId) →
            opened.documentVector prims readers scoring documentId = .ok none)) := by
  obtain ⟨options, h, rfl, hopen⟩ := hpublishes.opens hread
  refine ⟨_, hopen, fun documentId hne htext => ⟨?_, fun habsent => ?_⟩⟩
  · intro i document vector hdocument hvector hid
    rw [documentVector_opened h hreads hread ⟨hne, htext⟩, findIdx?_documentId h.ids_nodup hdocument
      hid, Option.bind_some, hvector]
    rfl
  · have hnone : documents.findIdx? (·.documentId = documentId) = none := by
      refine List.findIdx?_eq_none_iff.mpr fun document hdocument => decide_eq_false ?_
      intro hid
      exact habsent (List.mem_map.mpr ⟨document, hdocument, hid⟩)
    rw [documentVector_opened h hreads hread ⟨hne, htext⟩, hnone]
    rfl

/-- The vector of the document, and no vector for another id. -/
theorem sampleSeen_documentVector : ∃ index opened, SampleIndex index ∧
    OpenFastIndex.open sampleAssemblyPrimitives index.readers (index.directory sampleStorage) =
      .ok opened ∧
    opened.documentVector sampleAssemblyPrimitives index.readers sampleScoring "d" =
      .ok (some [1065353216]) ∧
    opened.documentVector sampleAssemblyPrimitives index.readers sampleScoring "e" = .ok none := by
  obtain ⟨index, hindex⟩ := exists_sampleIndex .sqliteV3
  obtain ⟨opened, hopen, hvector⟩ :=
    documentVector_published sampleScoring_reads hindex.publishes hindex.reads
  refine ⟨index, opened, hindex, hopen, ?_, (hvector "e" (by decide) (by decide)).2 (by decide)⟩
  exact (hvector "d" (by decide) (by decide)).1 0 _ _ rfl rfl rfl

/-- The vector of a search from outside is checked against the profile. -/
theorem queryValues_search (opened : OpenFastIndex) (queryVector : Option (List F32)) :
    opened.queryValues (scoring.bm25 ln) (queryVector.elim .absent .unvalidated) =
      profileQuery scoring opened.manifest.embeddingProfile queryVector := by
  cases queryVector with
  | none => rfl
  | some query => rfl

/-- A search by vectors that has no vector of the profile is refused. -/
theorem searchInternal_refused (h : Publishable unitNorm options documents occurrences vectors)
    (hread : ReadsBack storage readers
      (publishedIndex prims storage options documents occurrences vectors))
    (hcomparable : filters.Comparable occurrences) {topN : ℕ} (htop : ¬ (topN = 0 ∨ 100 < topN))
    (hfilters : ¬ filters.Invalid) {mode : SearchMode} (hmode : mode.UsesVector)
    {queryVector : QueryVectorInput} {error : IndexError}
    (hquery : (openedIndex prims storage options documents occurrences vectors).queryValues
      (scoring.bm25 ln) queryVector = .error error)
    (queryText : String) (excluded : List String) :
    (openedIndex prims storage options documents occurrences vectors).searchInternal prims readers
      (scoring.bm25 ln) mode queryText queryVector filters topN excluded = .error error := by
  obtain ⟨eligible, hrun, -⟩ := eligible_published h hread hcomparable
  rw [OpenFastIndex.searchInternal, throwIf_bind_of_not htop, throwIf_bind_of_not hfilters, hrun,
    ok_bind]
  rcases hmode with rfl | rfl
  · dsimp only
    rw [hquery]
    rfl
  · dsimp only
    rw [hquery]
    rfl

/-- A search over the index of the rows is answered by the rows. -/
theorem searchRows_published [IsStrictOrderedRing 𝕜]
    (h : Publishable unitNorm options documents occurrences vectors) (hln : ∀ x, 1 < x → 0 < ln x)
    (hreads : scoring.Reads unitNorm) (hread : ReadsBack storage readers
      (publishedIndex prims storage options documents occurrences vectors))
    (hcomparable : filters.Comparable occurrences) {mode : SearchMode} {queryText : String}
    {queryVector : Option (List F32)} {topN : ℕ} :
    (openedIndex prims storage options documents occurrences vectors).search prims readers
        (scoring.bm25 ln) mode queryText queryVector filters topN =
      searchRows scoring ln documents occurrences vectors options.embeddingProfile mode queryText
        queryVector filters topN := by
  rw [OpenFastIndex.search, searchRows]
  by_cases htop : topN = 0 ∨ 100 < topN
  · -- the same two refusals come first
    rw [OpenFastIndex.searchInternal, throwIf, if_pos htop]
    rfl
  by_cases hfilters : filters.Invalid
  · rw [OpenFastIndex.searchInternal, throwIf_bind_of_not htop, throwIf_bind_of_not htop, throwIf,
      if_pos hfilters]
    rfl
  rw [throwIf_bind_of_not htop, throwIf_bind_of_not hfilters]
  by_cases hmode : mode.UsesVector
  · have hquery := @queryValues_search _ _ _ scoring ln
      (openedIndex prims storage options documents occurrences vectors) queryVector
    rw [if_pos hmode]
    change _ = profileQuery scoring options.embeddingProfile queryVector at hquery
    cases hchecked : profileQuery scoring options.embeddingProfile queryVector with
    | error error =>
      rw [hchecked] at hquery
      exact searchInternal_refused h hread hcomparable htop hfilters hmode hquery queryText []
    | ok query =>
      rw [hchecked] at hquery
      exact searchInternal_published h hln hreads hread hcomparable htop hfilters (fun _ => hquery)
        queryText []
  · rw [if_neg hmode]
    exact searchInternal_published h hln hreads hread hcomparable htop hfilters
      (fun huses => absurd huses hmode) queryText []

/-- **A search over a published index says what its rows say.** Whatever writer published
the index and in whichever format, opening it and searching it gives the answer of
`searchRows`: the same refusals, and otherwise the first of the eligible documents by
falling score and then by id, each with its text, the number of its matching occurrences
and the first of them. -/
theorem search_published [IsStrictOrderedRing 𝕜] (hln : ∀ x, 1 < x → 0 < ln x)
    (hreads : scoring.Reads unitNorm)
    (hpublishes : Publishes prims storage unitNorm directory outputName documents occurrences vectors
      index) (hread : ReadsBack storage readers index) :
    ∃ opened, OpenFastIndex.open prims readers (index.directory storage) = .ok opened ∧
      ∀ mode queryText queryVector filters topN, filters.Comparable occurrences →
        opened.search prims readers (scoring.bm25 ln) mode queryText queryVector filters topN =
          searchRows scoring ln documents occurrences vectors index.manifest.embeddingProfile mode
            queryText queryVector filters topN := by
  obtain ⟨options, h, rfl, hopen⟩ := hpublishes.opens hread
  exact ⟨_, hopen, fun _ _ _ _ _ hcomparable => searchRows_published h hln hreads hread hcomparable⟩

/-- The search for a word of the document. -/
theorem sampleSeen_search : ∃ index opened, SampleIndex index ∧
    OpenFastIndex.open sampleAssemblyPrimitives index.readers (index.directory sampleStorage) =
      .ok opened ∧
    opened.search sampleAssemblyPrimitives index.readers (sampleScoring.bm25 fun x => x - 1) .lexical
        "text" none ⟨[], none, some 6⟩ 10 =
      searchRows sampleScoring (fun x => x - 1) sampleSeen.documents sampleSeen.occurrences
        sampleSeen.vectors sampleAssemblyOptions.embeddingProfile .lexical "text" none
        ⟨[], none, some 6⟩ 10 := by
  obtain ⟨index, hindex⟩ := exists_sampleIndex .jsonV2
  obtain ⟨opened, hopen, hsearch⟩ := search_published (fun x hx => sub_pos.mpr hx)
    sampleScoring_reads hindex.publishes hindex.reads
  refine ⟨index, opened, hindex, hopen, ?_⟩
  rw [hsearch .lexical "text" none ⟨[], none, some 6⟩ 10 (sampleSeen_comparable _), hindex.profile]

omit [Field 𝕜] [LinearOrder 𝕜] in
theorem zip_ids_nodup (hids : (documents.map (·.documentId)).Nodup)
    (hcount : vectors.length = documents.length) :
    ((documents.zip vectors).map fun pair => pair.1.documentId).Nodup := by
  have hzip : (documents.zip vectors).map Prod.fst = documents := List.map_fst_zip hcount.ge
  have hpairs : (documents.zip vectors).map (fun pair => pair.1.documentId) =
      ((documents.zip vectors).map Prod.fst).map (·.documentId) := by
    rw [List.map_map]
    rfl
  rw [hpairs, hzip]
  exact hids

omit [Field 𝕜] in
/-- Excluding documents takes them out of the ranking and leaves the rest in its order. -/
theorem rankByVectors_excluded (hids : (documents.map (·.documentId)).Nodup)
    (hcount : vectors.length = documents.length) (excluded : List String) (query : List F32) :
    rankByVectors scoring documents occurrences vectors filters excluded query =
      (rankByVectors scoring documents occurrences vectors filters [] query).filter
        fun entry => entry.1 ∉ excluded := by
  have hkeys : ((((documents.zip vectors).filter fun pair =>
      EligibleRows occurrences filters pair.1.documentId ∧ pair.1.documentId ∉ ([] : List String)).map
        fun pair => (pair.1.documentId, scoring.dot pair.2.values query)).map rankKey).Nodup := by
    refine List.Nodup.of_map (fun key => (ofLex key).2) ?_
    rw [List.map_map, List.map_map]
    exact (zip_ids_nodup hids hcount).sublist (List.filter_sublist.map _)
  rw [rankByVectors, rankByVectors, Ranking.filter_sortBy _ hkeys, List.filter_map, List.filter_filter]
  refine congrArg (fun pairs : List (FastDocument × OrderedVector) => Ranking.sortBy rankKey
    (pairs.map fun pair => (pair.1.documentId, scoring.dot pair.2.values query)))
    (List.filter_congr ?_)
  intro pair _
  simp [and_comm]

/-- **Documents similar to a document.** Over a published index, the documents similar to an
indexed one are the first of the ranking for its own vector, from which the document itself
is taken out, if asked for, before the ranking is cut. -/
theorem similar_published [IsStrictOrderedRing 𝕜] (hln : ∀ x, 1 < x → 0 < ln x)
    (hreads : scoring.Reads unitNorm)
    (hpublishes : Publishes prims storage unitNorm directory outputName documents occurrences vectors
      index) (hread : ReadsBack storage readers index) :
    ∃ opened, OpenFastIndex.open prims readers (index.directory storage) = .ok opened ∧
      ∀ (i : ℕ) (document : FastDocument) (seed : OrderedVector), documents[i]? = some document →
        vectors[i]? = some seed → ∀ filters topN excludeSeed, filters.Comparable occurrences →
        ¬ filters.Invalid → topN ≠ 0 → topN ≤ 100 →
        let ranking := (rankByVectors scoring documents occurrences vectors filters [] seed.values).filter
          fun entry => ¬ (excludeSeed = true ∧ entry.1 = document.documentId)
        opened.similar prims readers (scoring.bm25 ln) document.documentId filters topN excludeSeed =
          .ok (some ((ranking.take topN).mapIdx
            (rowHit documents occurrences filters (some ranking) none))) := by
  obtain ⟨options, h, rfl, hopen⟩ := hpublishes.opens hread
  refine ⟨_, hopen, ?_⟩
  intro i document seed hdocument hseed filters topN excludeSeed hcomparable hfilters hne hle ranking
  have hvector : (openedIndex prims storage options documents occurrences vectors).documentVector prims
      readers (scoring.bm25 ln) document.documentId = .ok (some seed.values) := by
    have hid := h.documents_accepted.ids_ne document (List.mem_of_getElem? hdocument)
    have hbm25 : (scoring.bm25 ln).Reads unitNorm := ⟨hreads.unitNorm_eq, hreads.finite_dot⟩
    rw [documentVector_opened h hbm25 hread hid, findIdx?_documentId h.ids_nodup hdocument rfl,
      Option.bind_some, hseed]
    rfl
  have htop : ¬ (topN = 0 ∨ 100 < topN) := not_or.mpr ⟨hne, not_lt.mpr hle⟩
  have hsearch := @searchInternal_published _ _ _ scoring ln prims storage readers unitNorm options
    documents occurrences vectors filters _ h hln hreads hread hcomparable topN htop hfilters .dense
    (.bound seed.values) seed.values (fun _ => rfl) "" (if excludeSeed then [document.documentId] else [])
  have hranking : rankByVectors scoring documents occurrences vectors filters
      (if excludeSeed then [document.documentId] else []) seed.values = ranking := by
    rw [rankByVectors_excluded h.ids_nodup h.vector_count]
    refine List.filter_congr fun entry _ => decide_eq_decide.mpr ?_
    cases excludeSeed <;> simp
  rw [OpenFastIndex.similar, hvector, ok_bind]
  dsimp only
  rw [hsearch, rankRows, hranking]
  rfl

/-- The only document has no neighbour besides itself. -/
theorem sampleSeen_similar : ∃ index opened, SampleIndex index ∧
    OpenFastIndex.open sampleAssemblyPrimitives index.readers (index.directory sampleStorage) =
      .ok opened ∧
    opened.similar sampleAssemblyPrimitives index.readers (sampleScoring.bm25 fun x => x - 1) "d"
      ⟨[], none, none⟩ 10 true = .ok (some []) := by
  obtain ⟨index, hindex⟩ := exists_sampleIndex .sqliteV3
  obtain ⟨opened, hopen, hsimilar⟩ := similar_published (fun x hx => sub_pos.mpr hx)
    sampleScoring_reads hindex.publishes hindex.reads
  refine ⟨index, opened, hindex, hopen, ?_⟩
  have hanswer := hsimilar 0 (sampleFastDocument "d") sampleOrderedVector rfl rfl ⟨[], none, none⟩ 10
    true (sampleSeen_comparable _) (by simp [SearchFilters.Invalid]) (by decide) (by decide)
  have hempty : ((rankByVectors sampleScoring sampleSeen.documents sampleSeen.occurrences
      sampleSeen.vectors ⟨[], none, none⟩ [] sampleOrderedVector.values).filter fun entry =>
        ¬ (true = true ∧ entry.1 = (sampleFastDocument "d").documentId)) = [] := by
    refine List.filter_eq_nil_iff.mpr fun entry hentry => ?_
    obtain ⟨document, hdocument, hid⟩ := List.mem_map.mp
      (rankByVectors_scoresOf [] sampleOrderedVector.values entry hentry)
    obtain rfl := List.mem_singleton.mp (List.mem_of_mem_filter hdocument)
    simp [← hid]
  rw [hempty] at hanswer
  exact hanswer

/-! ### What a hit says -/

/-- A hit says what the rows say about its document. -/
structure HitOf (documents : List FastDocument) (occurrences : List FastOccurrence)
    (filters : SearchFilters) (hit : SearchHit 𝕜) : Prop where
  indexed : ∃ document ∈ documents, document.documentId = hit.documentId ∧
    document.semanticText = hit.semanticText
  eligible : EligibleRows occurrences filters hit.documentId
  count : (hit.eligibleOccurrenceCount : ℕ) = occurrences.countP fun row =>
    filters.Matches row ∧ row.documentId = hit.documentId
  first : hit.occurrences = ((matchingRows occurrences filters hit.documentId).take
    maxReturnedOccurrencesPerHit).map FastOccurrence.evidence
  exhausted : hit.occurrencesExhausted = true ↔
    hit.occurrences.length = (hit.eligibleOccurrenceCount : ℕ)

omit [Field 𝕜] [LinearOrder 𝕜] in
theorem rowHit_hitOf (h : Publishable unitNorm options documents occurrences vectors)
    {entry : String × 𝕜} (hid : entry.1 ∈ documents.map (·.documentId))
    (heligible : EligibleRows occurrences filters entry.1) (dense lexical : Option (Scores 𝕜))
    (index : ℕ) :
    HitOf documents occurrences filters
      (rowHit documents occurrences filters dense lexical index entry) := by
  have hlength : (matchingRows occurrences filters entry.1).length =
      occurrences.countP fun row => filters.Matches row ∧ row.documentId = entry.1 := by
    rw [matchingRows, Ranking.length_sortBy, List.filter_filter, List.countP_eq_length_filter]
    refine congrArg List.length (List.filter_congr fun row _ => ?_)
    simp [and_comm]
  have hcount : ((toWidth 64 (matchingRows occurrences filters entry.1).length).getD 0 : U64) =
      (⟨(matchingRows occurrences filters entry.1).length, hlength ▸
        List.countP_le_length.trans_lt h.occurrences_lt⟩ : U64) := by
    have hlt : (matchingRows occurrences filters entry.1).length < 2 ^ 64 :=
      hlength ▸ List.countP_le_length.trans_lt h.occurrences_lt
    have hwidth : toWidth 64 (matchingRows occurrences filters entry.1).length = some ⟨_, hlt⟩ :=
      toWidth_eq_some.mpr rfl
    rw [hwidth]
    rfl
  obtain ⟨document, hdocument, hsame⟩ := List.mem_map.mp hid
  have hfind := Tables.UniqueOn.find?_eq h.ids_nodup hdocument
  refine ⟨⟨document, hdocument, hsame, ?_⟩, heligible, ?_, rfl, ?_⟩
  · show document.semanticText = textOf documents entry.1
    rw [textOf, ← hsame, hfind]
    rfl
  · exact (congrArg Fin.val hcount).trans hlength
  · show decide (_ ≤ _) = true ↔ List.length (List.map _ _) = ((toWidth 64 _).getD 0 : U64)
    rw [hcount, decide_eq_true_iff, List.length_map, List.length_take]
    exact min_eq_right_iff.symm

omit [Field 𝕜] in
theorem rankByVectors_nodup (hids : (documents.map (·.documentId)).Nodup)
    (hcount : vectors.length = documents.length) (excluded : List String) (query : List F32) :
    ((rankByVectors scoring documents occurrences vectors filters excluded query).map
      Prod.fst).Nodup := by
  rw [rankByVectors, ((Ranking.sortBy_perm rankKey _).map Prod.fst).nodup_iff, List.map_map]
  exact (zip_ids_nodup hids hcount).sublist (List.filter_sublist.map _)

theorem rankByTerms_nodup
    (hascending : documents.Pairwise fun a b => a.documentId < b.documentId) (queryText : String) :
    ((rankByTerms ln documents occurrences filters queryText).map Prod.fst).Nodup := by
  rw [rankByTerms, ((Ranking.sortBy_perm rankKey _).map Prod.fst).nodup_iff,
    List.nodup_iff_pairwise_ne, List.pairwise_map]
  -- the scored documents stand in the order of their ids
  refine (hascending.filter _).filterMap _ fun a b hlt p hp q hq => ?_
  dsimp only at hp hq
  split at hp
  · split at hq
    · rw [← Option.some.inj hp, ← Option.some.inj hq]
      exact hlt.ne
    · cases hq
  · cases hp

theorem rankRows_hitOf (h : Publishable unitNorm options documents occurrences vectors)
    (mode : SearchMode) (topN : ℕ) (excluded : List String) (queryText : String) (query : List F32) :
    let hits := rankRows scoring ln documents occurrences vectors mode filters topN excluded queryText
      query
    hits.length ≤ topN ∧ (hits.map (·.documentId)).Nodup ∧
      ∀ hit ∈ hits, HitOf documents occurrences filters hit := by
  intro hits
  -- the hits of a ranking of eligible documents
  have hranking : ∀ {ranking : Scores 𝕜} (dense lexical : Option (Scores 𝕜)),
      ScoresOf (documents.filter fun document =>
        EligibleRows occurrences filters document.documentId) ranking →
      (ranking.map Prod.fst).Nodup →
      ((ranking.take topN).mapIdx (rowHit documents occurrences filters dense lexical)).length ≤ topN ∧
      (((ranking.take topN).mapIdx (rowHit documents occurrences filters dense lexical)).map
        (·.documentId)).Nodup ∧
      ∀ hit ∈ (ranking.take topN).mapIdx (rowHit documents occurrences filters dense lexical),
        HitOf documents occurrences filters hit := by
    intro ranking dense lexical hscores hnodup
    refine ⟨?_, ?_, fun hit hhit => ?_⟩
    · rw [List.length_mapIdx, List.length_take]
      exact min_le_left _ _
    · have hids : ((ranking.take topN).mapIdx (rowHit documents occurrences filters dense
          lexical)).map (·.documentId) = (ranking.take topN).map Prod.fst := by
        rw [List.mapIdx_eq_zipIdx_map, List.map_map]
        exact (List.map_map (l := (ranking.take topN).zipIdx) (f := Prod.fst) (g := Prod.fst)).symm.trans
          (congrArg _ (List.zipIdx_map_fst ..))
      rw [hids]
      exact hnodup.sublist ((List.take_sublist _ _).map _)
    · obtain ⟨i, hi, rfl⟩ := List.mem_mapIdx.mp hhit
      obtain ⟨document, hdocument, hid⟩ := List.mem_map.mp
        (hscores _ (List.mem_of_mem_take (List.getElem_mem hi)))
      obtain ⟨hmem, heligible⟩ := List.mem_filter.mp hdocument
      refine rowHit_hitOf h ?_ ?_ dense lexical i
      · rw [← hid]
        exact List.mem_map_of_mem hmem
      · rw [← hid]
        exact of_decide_eq_true heligible
  have hvectors := @rankByVectors_scoresOf _ _ scoring documents occurrences vectors filters excluded
    query
  have hterms := @rankByTerms_scoresOf _ _ _ ln documents occurrences filters queryText
  cases mode with
  | dense => exact hranking _ _ hvectors (rankByVectors_nodup h.ids_nodup h.vector_count _ _)
  | lexical => exact hranking _ _ hterms (rankByTerms_nodup h.documents_accepted.ascending _)
  | fused =>
    refine hranking _ _ (reciprocalRankFusion_scoresOf _ hvectors hterms) ?_
    rw [reciprocalRankFusion, sortScores_bm25,
      ((Ranking.sortBy_perm rankKey _).map Prod.fst).nodup_iff]
    exact SortedMap.nodup_keys _

/-- **The occurrences of a hit are exact.** Every hit of an accepted search over a published
index is a document with a matching occurrence; it is found once, its count is the number
of its matching occurrences, the occurrences shown are the first of these by their ids, and
it says that they are all exactly when they are. -/
theorem search_occurrences_exact [IsStrictOrderedRing 𝕜] (hln : ∀ x, 1 < x → 0 < ln x)
    (hreads : scoring.Reads unitNorm)
    (hpublishes : Publishes prims storage unitNorm directory outputName documents occurrences vectors
      index) (hread : ReadsBack storage readers index) :
    ∃ opened, OpenFastIndex.open prims readers (index.directory storage) = .ok opened ∧
      ∀ mode queryText queryVector filters topN hits, filters.Comparable occurrences →
        opened.search prims readers (scoring.bm25 ln) mode queryText queryVector filters topN =
          .ok hits →
        hits.length ≤ topN ∧ (hits.map (·.documentId)).Nodup ∧
          ∀ hit ∈ hits, HitOf documents occurrences filters hit := by
  obtain ⟨options, h, rfl, hopen⟩ := hpublishes.opens hread
  refine ⟨_, hopen, ?_⟩
  intro mode queryText queryVector filters topN hits hcomparable hsearch
  rw [searchRows_published h hln hreads hread hcomparable] at hsearch
  obtain ⟨-, -, hsearch⟩ := bind_eq_ok.mp hsearch
  obtain ⟨-, -, hsearch⟩ := bind_eq_ok.mp hsearch
  -- the mode decides whether the query has a vector
  split at hsearch
  · obtain ⟨query, -, hhits⟩ := bind_eq_ok.mp hsearch
    cases hhits
    exact rankRows_hitOf h mode topN [] queryText query
  · cases hsearch
    exact rankRows_hitOf h mode topN [] queryText []

/-- The hit of the document shows its one occurrence. -/
theorem sampleSeen_occurrences : ∃ index opened, SampleIndex index ∧
    OpenFastIndex.open sampleAssemblyPrimitives index.readers (index.directory sampleStorage) =
      .ok opened ∧
    ∀ hits, opened.search sampleAssemblyPrimitives index.readers
        (sampleScoring.bm25 fun x => x - 1) .lexical "text" none ⟨[], none, none⟩ 10 = .ok hits →
      ∀ hit ∈ hits, HitOf sampleSeen.documents sampleSeen.occurrences ⟨[], none, none⟩ hit := by
  obtain ⟨index, hindex⟩ := exists_sampleIndex .jsonV2
  obtain ⟨opened, hopen, hsearch⟩ := search_occurrences_exact (fun x hx => sub_pos.mpr hx)
    sampleScoring_reads hindex.publishes hindex.reads
  refine ⟨index, opened, hindex, hopen, fun hits hhits => ?_⟩
  exact (hsearch .lexical "text" none ⟨[], none, none⟩ 10 hits (sampleSeen_comparable _) hhits).2.2

/-- **The formats answer alike.** Two indexes published from the same rows, by any two of the
writers and in any of the formats, for profiles with the same dimensions and normalization,
give the same answer to every search. -/
theorem search_formats_agree [IsStrictOrderedRing 𝕜] (hln : ∀ x, 1 < x → 0 < ln x)
    (hreads : scoring.Reads unitNorm) {storage' : Storage} {readers' : FileReaders}
    {directory' : OutputDirectory} {outputName' : Option String} {index' : FastIndex}
    (hpublishes : Publishes prims storage unitNorm directory outputName documents occurrences vectors
      index) (hread : ReadsBack storage readers index)
    (hpublishes' : Publishes prims storage' unitNorm directory' outputName' documents occurrences
      vectors index') (hread' : ReadsBack storage' readers' index')
    (hdimensions : index.manifest.embeddingProfile.dimensions =
      index'.manifest.embeddingProfile.dimensions)
    (hnormalization : index.manifest.embeddingProfile.normalization =
      index'.manifest.embeddingProfile.normalization) :
    ∃ opened opened', OpenFastIndex.open prims readers (index.directory storage) = .ok opened ∧
      OpenFastIndex.open prims readers' (index'.directory storage') = .ok opened' ∧
      ∀ mode queryText queryVector filters topN, filters.Comparable occurrences →
        opened.search prims readers (scoring.bm25 ln) mode queryText queryVector filters topN =
          opened'.search prims readers' (scoring.bm25 ln) mode queryText queryVector filters topN := by
  obtain ⟨options, h, rfl, hopen⟩ := hpublishes.opens hread
  obtain ⟨options', h', rfl, hopen'⟩ := hpublishes'.opens hread'
  refine ⟨_, _, hopen, hopen', ?_⟩
  intro mode queryText queryVector filters topN hcomparable
  change options.embeddingProfile.dimensions = options'.embeddingProfile.dimensions at hdimensions
  change options.embeddingProfile.normalization = options'.embeddingProfile.normalization
    at hnormalization
  rw [searchRows_published h hln hreads hread hcomparable,
    searchRows_published h' hln hreads hread' hcomparable, searchRows, searchRows, profileQuery,
    profileQuery, hdimensions, hnormalization]

/-- The index of the document in its two formats. -/
theorem sampleSeen_formats : ∃ index index' opened opened', SampleIndex index ∧
    SampleIndex index' ∧
    OpenFastIndex.open sampleAssemblyPrimitives index.readers (index.directory sampleStorage) =
      .ok opened ∧
    OpenFastIndex.open sampleAssemblyPrimitives index'.readers (index'.directory sampleStorage) =
      .ok opened' ∧
    opened.search sampleAssemblyPrimitives index.readers (sampleScoring.bm25 fun x => x - 1) .lexical
        "text" none ⟨[], none, none⟩ 10 =
      opened'.search sampleAssemblyPrimitives index'.readers (sampleScoring.bm25 fun x => x - 1)
        .lexical "text" none ⟨[], none, none⟩ 10 := by
  obtain ⟨index, hindex⟩ := exists_sampleIndex .jsonV2
  obtain ⟨index', hindex'⟩ := exists_sampleIndex .sqliteV3
  obtain ⟨opened, opened', hopen, hopen', hagree⟩ := search_formats_agree
    (fun x hx => sub_pos.mpr hx) sampleScoring_reads hindex.publishes hindex.reads hindex'.publishes
    hindex'.reads (by rw [hindex.profile, hindex'.profile]) (by rw [hindex.profile, hindex'.profile])
  exact ⟨index, index', opened, opened', hindex, hindex', hopen, hopen',
    hagree .lexical "text" none ⟨[], none, none⟩ 10 (sampleSeen_comparable _)⟩

end Search

end LivefireRag.Index
