import LivefireRag.Lib.Chunks
import LivefireRag.Lib.Ranking
import LivefireRag.Index.Open

/-!
# Searching an index

The search of an opened index (`FastIndex::search_internal`): the documents with an
occurrence that passes the filter are ranked by their vectors, by their terms or by both,
the first of the ranking are kept, and each comes with the occurrences that pass the
filter. The arithmetic of the scores is a parameter (`Scoring`).
-/

namespace LivefireRag.Index

open Machine Fallible Grouping

/-- The arithmetic of the scores. -/
structure Scoring (Score : Type) where
  zero : Score
  add : Score → Score → Score
  /-- The sum of the products of two rows of floats, in order. -/
  dot : List F32 → List F32 → Score
  isFinite : Score → Bool
  isPositive : Score → Bool
  /-- Whether the Euclidean norm of a row differs from 1 by at most `10 ^ -4`. -/
  unitNorm : List F32 → Bool
  /-- The weight of a term in a document: the number of documents, the number of those
  with the term, how often the term occurs, the length of the document and the average
  length as a fraction. -/
  termScore : ℕ → ℕ → ℕ → ℕ → ℕ × ℕ → Score
  /-- `1 / (60 + rank + 1)`. -/
  reciprocalRank : ℕ → Score
  compare : Score → Score → Ordering

/-- Document ids with their scores. -/
abbrev Scores (Score : Type) := List (String × Score)

/-- The ids a search is limited to. -/
abbrev EligibleDocuments := Option (List String)

def EligibleDocuments.Admits (eligible : EligibleDocuments) (documentId : String) : Prop :=
  ∀ ids ∈ eligible, documentId ∈ ids

instance (eligible : EligibleDocuments) : DecidablePred eligible.Admits := fun documentId => by
  unfold EligibleDocuments.Admits
  infer_instance

def maxReturnedOccurrencesPerHit : ℕ := 50

/-! ### Occurrences -/

/-- Conversion to a signed integer of 64 bits, the largest one standing for what is
beyond it. -/
def clampToI64 (n : U64) : ℤ := if (n : ℕ) < 2 ^ 63 then (n : ℕ) else 2 ^ 63 - 1

/-- What the filter asks of a row. A comparison with a missing time is not true. -/
def SearchFilters.Passes (filters : SearchFilters) (row : StoredOccurrence) : Prop :=
  (filters.relations = [] ∨ row.relation ∈ filters.relations) ∧
    (∀ start ∈ filters.timeStartMs, ∃ time ∈ row.eventTimeMs, clampToI64 start ≤ time) ∧
    ∀ stop ∈ filters.timeEndMs, ∃ time ∈ row.eventTimeMs, time < clampToI64 stop

instance (filters : SearchFilters) : DecidablePred filters.Passes := fun row => by
  unfold SearchFilters.Passes
  infer_instance

/-- Distinct texts in ascending order. -/
def distinctSorted (texts : List String) : List String :=
  (SortedMap.ofList (texts.map fun text => (text, ()))).keys

def readEligibleDocumentIds (rows : List StoredOccurrence) (filters : SearchFilters) :
    List String :=
  distinctSorted ((rows.filter (filters.Passes ·)).map (·.documentId))

structure MatchedOccurrences where
  eligibleCount : ℕ
  rows : List EvidenceOccurrence

/-- One row of the answer. -/
def matchOccurrence (matched : SortedMap String MatchedOccurrences) (row : StoredOccurrence) :
    Result (SortedMap String MatchedOccurrences) := do
  throwIf (∃ time ∈ row.eventTimeMs, time < 0) (.corrupt "negative occurrence timestamp")
  let entry := (matched.get? row.documentId).getD ⟨0, []⟩
  let time : Option U64 := row.eventTimeMs.bind fun time => toWidth 64 time.toNat
  let kept := if entry.rows.length < maxReturnedOccurrencesPerHit then
    entry.rows ++ [⟨time, row.relation, row.snapshotSha256, row.mappingSha256, row.eventId,
      row.supportRef⟩] else entry.rows
  return matched.insert row.documentId ⟨entry.eligibleCount + 1, kept⟩

def readMatchingOccurrences (rows : List StoredOccurrence) (documentIds : List String)
    (filters : SearchFilters) : Result (SortedMap String MatchedOccurrences) :=
  (Ranking.sortBy (fun row : StoredOccurrence => toLex (row.documentId, row.occurrenceId))
    (rows.filter fun row => row.documentId ∈ documentIds ∧ filters.Passes row)).foldlM
    matchOccurrence SortedMap.empty

/-! ### Rankings -/

section Rankings

variable {Score : Type} (scoring : Scoring Score)

/-- Higher scores first, then by id. -/
def sortScores (scores : Scores Score) : Scores Score :=
  scores.mergeSort fun left right =>
    ((scoring.compare right.2 left.2).then (compare left.1 right.1)).isLE

/-- The weight of the terms of a query in a document of the JSON form. -/
def LexicalJson.documentScore (index : LexicalJson) (terms : List String)
    (document : LexicalDocument) : Score :=
  (terms.map fun term =>
    let frequency := (document.terms.get? term).getD 0
    if frequency = 0 then scoring.zero
    else scoring.termScore index.documentCount ((index.documentFrequency.get? term).getD 0)
      frequency document.length index.averageLength).foldl scoring.add scoring.zero

def LexicalJson.scores (index : LexicalJson) (query : String) (eligible : EligibleDocuments) :
    Scores Score :=
  let terms := distinctSorted (tokenize query)
  sortScores scoring <| (index.documents.filter (eligible.Admits ·.documentId)).filterMap
    fun document =>
      let score := index.documentScore scoring terms document
      if scoring.isPositive score then some (document.documentId, score) else none

/-- The postings of a term with the documents they are in, in the order of the ordinals. -/
def LexicalTables.postingsOf (tables : LexicalTables) (term : String) :
    List (PostingRow × LexicalDocumentRow) :=
  Ranking.sortBy (fun entry => entry.1.documentOrdinal)
    ((tables.postings.filter (·.term = term)).flatMap fun posting =>
      (tables.documents.filter (·.documentOrdinal = posting.documentOrdinal)).map fun document =>
        (posting, document))

/-- One posting of a term. -/
def addPosting (eligible : EligibleDocuments) (documentCount documentFrequency : ℕ)
    (averageLength : ℕ × ℕ) (scores : SortedMap String Score)
    (entry : PostingRow × LexicalDocumentRow) : Result (SortedMap String Score) := do
  if eligible.Admits entry.2.documentId then
    throwIf (entry.1.termFrequency = 0) (.corrupt "lexical term frequency")
    return upsert scoring.add scores (entry.2.documentId,
      scoring.termScore documentCount documentFrequency entry.1.termFrequency entry.2.length
        averageLength)
  else return scores

/-- One term of a query. -/
def addTerm (tables : LexicalTables) (eligible : EligibleDocuments) (documentCount : ℕ)
    (averageLength : ℕ × ℕ) (scores : SortedMap String Score) (term : String) :
    Result (SortedMap String Score) :=
  match tables.termStats.get? term with
  | none => return scores
  | some documentFrequency => do
    throwIf (documentFrequency = 0 ∨ documentCount < documentFrequency)
      (.corrupt "lexical document frequency")
    (tables.postingsOf term).foldlM
      (addPosting scoring eligible documentCount documentFrequency averageLength) scores

def LexicalTables.scores (tables : LexicalTables) (documentCount totalLength : ℕ) (query : String)
    (eligible : EligibleDocuments) : Result (Scores Score) := do
  let terms := distinctSorted (tokenize query)
  if terms = [] then return []
  let scores ← terms.foldlM
    (addTerm scoring tables eligible documentCount (totalLength, max documentCount 1))
    SortedMap.empty
  return sortScores scoring scores.entries

/-- Each document of a ranking is worth the reciprocal of its place. -/
def reciprocalRankFusion (dense lexical : Scores Score) : Scores Score :=
  let worth (ranking : Scores Score) : List (String × Score) :=
    ranking.mapIdx fun rank entry => (entry.1, scoring.add scoring.zero (scoring.reciprocalRank rank))
  sortScores scoring (collect scoring.add (worth dense ++ worth lexical)).entries

end Rankings

/-! ### The search -/

/-- The query vector, if any, and whether it was bound to the profile beforehand. -/
inductive QueryVectorInput where
  | absent
  | unvalidated (values : List F32)
  | bound (values : List F32)

def QueryVectorInput.values : QueryVectorInput → Option (List F32)
  | .absent => none
  | .unvalidated values => some values
  | .bound values => some values

section Search

variable {Score : Type} (prims : Pipeline.Primitives) (readers : FileReaders)
  (scoring : Scoring Score)

def validateQueryVectorValues (vector : List F32) (dimensions : ℕ) (normalization : String) :
    Result Unit := do
  throwIf (vector.length ≠ dimensions ∨ ∃ value ∈ vector, ¬ value.IsFinite)
    (.invalid "query vector")
  throwIf (normalization = "l2" ∧ ¬ scoring.unitNorm vector) (.invalid "query vector normalization")

/-- The digest of the document ids in order. -/
def documentOrderSha256 (documents : List FastDocument) : String :=
  (prims.sha256 (documents.flatMap documentOrderBytes)).val

def OpenFastIndex.readDocuments (index : OpenFastIndex) : Result (List FastDocument) := do
  let documents ← readFile (readers.documents index.documents)
  throwIf (documents.length ≠ index.manifest.documents.rows ∨
      documentOrderSha256 prims documents ≠ index.manifest.vectors.documentOrderSha256 ∨
      index.manifest.documents.orderSha256 ≠ some index.manifest.vectors.documentOrderSha256 ∨
      ∃ entry ∈ documents.zipIdx, (entry.1.vectorOrdinal : ℕ) ≠ entry.2)
    (.corrupt "manifest row/order binding")
  return documents

/-- The floats of the vector file at a position. -/
def readVectorRow (content : List UInt8) (dimensions ordinal : ℕ) : Result (List F32) := do
  let rowBytes ← orThrow (checkedMul 64 dimensions 4) (.invalid "vector row bytes")
  let start ← orThrow (checkedMul 64 ordinal rowBytes) (.invalid "vector offset")
  let offset ← orThrow (checkedAdd 64 vectorHeaderBytes start) (.invalid "vector offset")
  let row := (content.drop offset).take rowBytes
  throwIf (row.length ≠ rowBytes) .io
  return (Chunks.chunksExact 4 row).map F32.ofLeBytes

/-- The score of one document against the query. -/
def OpenFastIndex.denseScore (index : OpenFastIndex) (query : List F32)
    (document : FastDocument) : Result (String × Score) := do
  let row ← readVectorRow index.vectors index.manifest.vectors.dimensions document.vectorOrdinal
  throwIf (∃ entry ∈ row.zip query, ¬ entry.1.IsFinite) (.corrupt "non-finite vector value")
  let score := scoring.dot row query
  throwIf (¬ scoring.isFinite score ∨
      index.manifest.embeddingProfile.normalization = "l2" ∧ ¬ scoring.unitNorm row)
    (.corrupt "vector normalization")
  return (document.documentId, score)

def OpenFastIndex.denseScores (index : OpenFastIndex) (documents : List FastDocument)
    (query : List F32) (eligible : EligibleDocuments) (excluded : List String) :
    Result (Scores Score) := do
  let scores ← (documents.filter fun document =>
      eligible.Admits document.documentId ∧ document.documentId ∉ excluded).mapM
    (index.denseScore scoring query)
  return sortScores scoring scores

def OpenFastIndex.lexicalScores (index : OpenFastIndex) (query : String)
    (eligible : EligibleDocuments) : Result (Scores Score) :=
  match index.lexical with
  | .jsonV2 => do
    let lexical ← readFile (readers.lexicalJson index.lexicalFile)
    let documents ← index.readDocuments prims readers
    let documentIds := distinctSorted (documents.map (·.documentId))
    let lexicalIds := distinctSorted (lexical.documents.map (·.documentId))
    throwIf (lexical.documentCount ≠ documents.length ∨
        lexical.documents.length ≠ documents.length ∨
        lexicalIds.length ≠ lexical.documents.length ∨ lexicalIds ≠ documentIds)
      (.corrupt "lexical document association")
    return lexical.scores scoring query eligible
  | .sqliteV3 documentCount totalLength => do
    let stored ← readFile (readers.lexicalTables index.lexicalFile)
    stored.tables.scores scoring documentCount totalLength query eligible

/-- The text of a document of the database. -/
def LexicalTables.semanticText (tables : LexicalTables) (documentId : String) :
    Result (String × String) := do
  let row ← orThrow (tables.documents.find? (·.documentId = documentId))
    (.corrupt "lexical document association")
  return (documentId, row.semanticText)

def OpenFastIndex.semanticTexts (index : OpenFastIndex) (selectedIds : List String) :
    Result (List (String × String)) :=
  match index.lexical with
  | .jsonV2 => do
    let documents ← index.readDocuments prims readers
    return (documents.filter (·.documentId ∈ selectedIds)).map fun document =>
      (document.documentId, document.semanticText)
  | .sqliteV3 _ _ => do
    let stored ← readFile (readers.lexicalTables index.lexicalFile)
    selectedIds.mapM stored.tables.semanticText

def OpenFastIndex.eligible (index : OpenFastIndex) (filters : SearchFilters) :
    Result EligibleDocuments :=
  if filters.relations = [] ∧ filters.timeStartMs = none ∧ filters.timeEndMs = none then
    return none
  else do
    let lookup ← readFile (readers.lookup index.occurrenceLookup)
    return some (readEligibleDocumentIds lookup.occurrences filters)

/-- The occurrences of the selected documents. The database is not read when there are
none. -/
def OpenFastIndex.matchingOccurrences (index : OpenFastIndex) (selectedIds : List String)
    (filters : SearchFilters) : Result (SortedMap String MatchedOccurrences) :=
  if selectedIds = [] then return SortedMap.empty
  else do
    let lookup ← readFile (readers.lookup index.occurrenceLookup)
    readMatchingOccurrences lookup.occurrences selectedIds filters

/-- The score of a document in a ranking; of repeated entries the last one counts. -/
def scoreIn (ranking : Option (Scores Score)) (documentId : String) : Option Score :=
  (ranking.getD []).reverse.lookup documentId

/-- The hit for an entry of the ranking. -/
def describeHit (dense lexical : Option (Scores Score)) (texts : List (String × String))
    (matched : SortedMap String MatchedOccurrences) (entry : (String × Score) × ℕ) :
    Result (SearchHit Score) := do
  let ((documentId, score), index) := entry
  let text ← orThrow (texts.reverse.lookup documentId) .aborted
  let found := matched.get? documentId
  return {
    rank := index + 1
    documentId := documentId
    semanticText := text
    score := score
    denseScore := scoreIn dense documentId
    lexicalScore := scoreIn lexical documentId
    eligibleOccurrenceCount :=
      (found.bind fun matched => toWidth 64 matched.eligibleCount).getD 0
    occurrencesExhausted :=
      found.any fun matched => matched.rows.length = matched.eligibleCount
    occurrences := (found.map (·.rows)).getD [] }

/-- The hits for the first of a ranking. -/
def OpenFastIndex.selectRanked (index : OpenFastIndex) (filters : SearchFilters) (topN : ℕ)
    (dense lexical : Option (Scores Score)) (scores : Scores Score) :
    Result (List (SearchHit Score)) := do
  let selected := scores.take topN
  let selectedIds := distinctSorted (selected.map Prod.fst)
  let texts ← index.semanticTexts prims readers selectedIds
  let matched ← index.matchingOccurrences readers selectedIds filters
  selected.zipIdx.mapM (describeHit dense lexical texts matched)

def SearchFilters.Invalid (filters : SearchFilters) : Prop :=
  256 < filters.relations.length ∨
    (∃ relation ∈ filters.relations, relation = "" ∨ 128 < relation.utf8ByteSize ∨
      '\x00' ∈ relation.toList) ∨
    ∃ start ∈ filters.timeStartMs, ∃ stop ∈ filters.timeEndMs, stop ≤ start

instance (filters : SearchFilters) : Decidable filters.Invalid := by
  unfold SearchFilters.Invalid
  infer_instance

def SearchMode.UsesVector (mode : SearchMode) : Prop := mode = .dense ∨ mode = .fused

instance (mode : SearchMode) : Decidable mode.UsesVector := by
  unfold SearchMode.UsesVector
  infer_instance

/-- The vector of a search by vectors, checked unless it was bound before. -/
def OpenFastIndex.queryValues (index : OpenFastIndex) (queryVector : QueryVectorInput) :
    Result (List F32) := do
  let values ← orThrow queryVector.values (.invalid "query vector")
  match queryVector with
  | .unvalidated values =>
    validateQueryVectorValues scoring values index.manifest.embeddingProfile.dimensions
      index.manifest.embeddingProfile.normalization
    return values
  | _ => return values

def OpenFastIndex.searchInternal (index : OpenFastIndex) (mode : SearchMode) (queryText : String)
    (queryVector : QueryVectorInput) (filters : SearchFilters) (topN : ℕ)
    (excluded : List String) : Result (List (SearchHit Score)) := do
  throwIf (topN = 0 ∨ 100 < topN) (.invalid "top_n")
  throwIf filters.Invalid (.invalid "search filters")
  let eligible ← index.eligible readers filters
  match mode with
  | .dense =>
    let values ← index.queryValues scoring queryVector
    let documents ← index.readDocuments prims readers
    let dense ← index.denseScores scoring documents values eligible excluded
    index.selectRanked prims readers filters topN (some dense) none dense
  | .lexical =>
    let lexical ← index.lexicalScores prims readers scoring queryText eligible
    index.selectRanked prims readers filters topN none (some lexical) lexical
  | .fused =>
    let values ← index.queryValues scoring queryVector
    let documents ← index.readDocuments prims readers
    let dense ← index.denseScores scoring documents values eligible excluded
    let lexical ← index.lexicalScores prims readers scoring queryText eligible
    index.selectRanked prims readers filters topN (some dense) (some lexical)
      (reciprocalRankFusion scoring dense lexical)

def OpenFastIndex.search (index : OpenFastIndex) (mode : SearchMode) (queryText : String)
    (queryVector : Option (List F32)) (filters : SearchFilters) (topN : ℕ) :
    Result (List (SearchHit Score)) :=
  index.searchInternal prims readers scoring mode queryText
    (queryVector.elim .absent .unvalidated) filters topN []

/-! ### Documents similar to a document -/

/-- The stored vector of an ordinal, checked like a query vector. -/
def OpenFastIndex.readProfileBoundVector (index : OpenFastIndex) (ordinal : ℕ) :
    Result (List F32) := do
  throwIf (index.manifest.vectors.count ≤ ordinal) (.corrupt "vector ordinal")
  let values ← readVectorRow index.vectors index.manifest.vectors.dimensions ordinal
  orThrowAs (validateQueryVectorValues scoring values index.manifest.embeddingProfile.dimensions
    index.manifest.embeddingProfile.normalization) (.corrupt "stored document vector")
  return values

/-- The halves a binary search goes through. `fuel` bounds the number of halvings. -/
def binarySearch (documents : List FastDocument) (documentId : String) :
    (fuel low high : ℕ) → Option FastDocument
  | 0, _, _ => none
  | fuel + 1, low, high =>
    if high ≤ low then none
    else
      let middle := (low + high) / 2
      match documents[middle]? with
      | none => none
      | some document =>
        if document.documentId = documentId then some document
        else if document.documentId < documentId then
          binarySearch documents documentId fuel (middle + 1) high
        else binarySearch documents documentId fuel low middle

def OpenFastIndex.documentOrdinal (index : OpenFastIndex) (documentId : String) :
    Result (Option ℕ) :=
  match index.lexical with
  | .sqliteV3 _ _ => do
    let stored ← readFile (readers.lexicalTables index.lexicalFile)
    return (stored.tables.documents.find? (·.documentId = documentId)).map (·.documentOrdinal)
  | .jsonV2 => do
    let documents ← index.readDocuments prims readers
    return (binarySearch documents documentId (documents.length + 1) 0 documents.length).map
      fun document => (document.vectorOrdinal : ℕ)

def OpenFastIndex.documentVector (index : OpenFastIndex) (documentId : String) :
    Result (Option (List F32)) := do
  throwIf (documentId = "" ∨ '\x00' ∈ documentId.toList) (.invalid "document id")
  let ordinal ← index.documentOrdinal prims readers documentId
  match ordinal with
  | none => return none
  | some ordinal =>
    let vector ← index.readProfileBoundVector scoring ordinal
    return some vector

def OpenFastIndex.similar (index : OpenFastIndex) (documentId : String) (filters : SearchFilters)
    (topN : ℕ) (excludeSeed : Bool) : Result (Option (List (SearchHit Score))) := do
  match ← index.documentVector prims readers scoring documentId with
  | none => return none
  | some seed =>
    let hits ← index.searchInternal prims readers scoring .dense "" (.bound seed) filters topN
      (if excludeSeed then [documentId] else [])
    return some hits

/-! ### Searches end in an answer -/

theorem avoids_decodedRow (content : List UInt8) (dimensions ordinal : ℕ) :
    Avoids .aborted (readVectorRow content dimensions ordinal) := by
  unfold readVectorRow
  iterate 3 refine avoids_bind (avoids_orThrow (by decide)) fun _ _ => ?_
  exact avoids_bind (avoids_throwIf (by decide)) fun _ _ => avoids_pure _

theorem OpenFastIndex.readDocuments_avoids_aborted (index : OpenFastIndex) :
    Avoids .aborted (index.readDocuments prims readers) := by
  unfold OpenFastIndex.readDocuments
  refine avoids_bind (avoids_readFile _) fun documents _ => ?_
  exact avoids_bind (avoids_throwIf (by decide)) fun _ _ => avoids_pure _

theorem OpenFastIndex.denseScores_avoids_aborted (index : OpenFastIndex)
    (documents : List FastDocument) (query : List F32) (eligible : EligibleDocuments)
    (excluded : List String) :
    Avoids .aborted (index.denseScores scoring documents query eligible excluded) := by
  refine avoids_bind (avoids_mapM fun document _ => ?_) fun _ _ => avoids_pure _
  refine avoids_bind (avoids_decodedRow _ _ _) fun row _ => ?_
  iterate 2 refine avoids_bind (avoids_throwIf (by decide)) fun _ _ => ?_
  exact avoids_pure _

theorem LexicalTables.scores_avoids_aborted (tables : LexicalTables)
    (documentCount totalLength : ℕ) (query : String) (eligible : EligibleDocuments) :
    Avoids .aborted (tables.scores scoring documentCount totalLength query eligible) := by
  unfold LexicalTables.scores
  dsimp only
  split
  · exact avoids_pure _
  · refine avoids_bind (avoids_foldlM fun scores term _ => ?_) fun _ _ => avoids_pure _
    unfold addTerm
    split
    · exact avoids_pure _
    · refine avoids_bind (avoids_throwIf (by decide)) fun _ _ => avoids_foldlM fun s entry _ => ?_
      unfold addPosting
      split
      · exact avoids_bind (avoids_throwIf (by decide)) fun _ _ => avoids_pure _
      · exact avoids_pure _

theorem OpenFastIndex.lexicalScores_avoids_aborted (index : OpenFastIndex) (query : String)
    (eligible : EligibleDocuments) :
    Avoids .aborted (index.lexicalScores prims readers scoring query eligible) := by
  unfold OpenFastIndex.lexicalScores
  split
  · refine avoids_bind (avoids_readFile _) fun lexical _ => ?_
    refine avoids_bind (index.readDocuments_avoids_aborted prims readers) fun documents _ => ?_
    exact avoids_bind (avoids_throwIf (by decide)) fun _ _ => avoids_pure _
  · exact avoids_bind (avoids_readFile _) fun stored _ =>
      stored.tables.scores_avoids_aborted scoring _ _ _ _

theorem OpenFastIndex.queryValues_avoids_aborted (index : OpenFastIndex)
    (queryVector : QueryVectorInput) :
    Avoids .aborted (index.queryValues scoring queryVector) := by
  unfold OpenFastIndex.queryValues validateQueryVectorValues
  refine avoids_bind (avoids_orThrow (by decide)) fun values _ => ?_
  split
  · refine avoids_bind (avoids_bind (avoids_throwIf (by decide)) fun _ _ => ?_) fun _ _ =>
      avoids_pure _
    exact avoids_throwIf (by decide)
  · exact avoids_pure _

theorem readMatchingOccurrences_avoids_aborted (rows : List StoredOccurrence)
    (documentIds : List String) (filters : SearchFilters) :
    Avoids .aborted (readMatchingOccurrences rows documentIds filters) :=
  avoids_foldlM fun _ _ _ => avoids_bind (avoids_throwIf (by decide)) fun _ _ => avoids_pure _

theorem mem_sortScores {scores : Scores Score} {entry : String × Score} :
    entry ∈ sortScores scoring scores ↔ entry ∈ scores :=
  List.mem_mergeSort

theorem mem_distinctSorted {texts : List String} {text : String} :
    text ∈ distinctSorted texts ↔ text ∈ texts := by
  rw [distinctSorted, SortedMap.mem_keys_ofList, List.map_map]
  exact Iff.of_eq (congrArg _ (List.map_id _))

/-- Every scored id is that of a document. -/
def ScoresOf (documents : List FastDocument) (scores : Scores Score) : Prop :=
  ∀ entry ∈ scores, entry.1 ∈ documents.map (·.documentId)

theorem OpenFastIndex.denseScores_scoresOf {index : OpenFastIndex}
    {documents : List FastDocument} {query : List F32} {eligible : EligibleDocuments}
    {excluded : List String} {scores : Scores Score}
    (h : index.denseScores scoring documents query eligible excluded = .ok scores) :
    ScoresOf documents scores := by
  obtain ⟨unsorted, hunsorted, h⟩ := bind_eq_ok.mp h
  obtain rfl := pure_eq_ok.mp h
  intro entry hentry
  obtain ⟨document, hdocument, hscore⟩ := exists_of_mem_mapM hunsorted
    ((mem_sortScores scoring).mp hentry)
  simp only [OpenFastIndex.denseScore, bind_eq_ok, exists_unit, pure_eq_ok] at hscore
  obtain ⟨row, -, -, -, rfl⟩ := hscore
  exact List.mem_map_of_mem (List.mem_filter.mp hdocument).1

/-- In the JSON form the scored documents are those of the row file. -/
theorem OpenFastIndex.lexicalScores_scoresOf {index : OpenFastIndex} {query : String}
    {eligible : EligibleDocuments} {scores : Scores Score} {documents : List FastDocument}
    (hlexical : index.lexical = .jsonV2)
    (hdocuments : index.readDocuments prims readers = .ok documents)
    (h : index.lexicalScores prims readers scoring query eligible = .ok scores) :
    ScoresOf documents scores := by
  rw [OpenFastIndex.lexicalScores, hlexical] at h
  simp only [hdocuments, bind_eq_ok, exists_unit, throwIf_eq_ok, pure_eq_ok, Except.ok.injEq,
    exists_eq_left', not_or, not_not] at h
  obtain ⟨lexical, -, ⟨-, -, -, hids⟩, rfl⟩ := h
  intro entry hentry
  obtain ⟨document, hdocument, hscored⟩ := List.mem_filterMap.mp ((mem_sortScores scoring).mp hentry)
  have hentry : entry.1 = document.documentId := by
    dsimp only at hscored
    split at hscored
    · exact (congrArg Prod.fst (Option.some.inj hscored)).symm
    · cases hscored
  rw [hentry, ← mem_distinctSorted, ← hids, mem_distinctSorted]
  exact List.mem_map_of_mem (List.mem_filter.mp hdocument).1

theorem reciprocalRankFusion_scoresOf {documents : List FastDocument} {dense lexical : Scores Score}
    (hdense : ScoresOf documents dense) (hlexical : ScoresOf documents lexical) :
    ScoresOf documents (reciprocalRankFusion scoring dense lexical) := by
  intro entry hentry
  have hkey : entry.1 ∈ (collect scoring.add _).keys :=
    List.mem_map_of_mem ((mem_sortScores scoring).mp hentry)
  obtain ⟨worth, hworth⟩ := mem_keys_collect.mp hkey
  obtain hworth | hworth := List.mem_append.mp hworth
  all_goals
    obtain ⟨i, hi, heq⟩ := List.mem_mapIdx.mp hworth
    rw [← congrArg Prod.fst heq]
  · exact hdense dense[i] (List.getElem_mem hi)
  · exact hlexical lexical[i] (List.getElem_mem hi)

/-- In the JSON form, the scored ids are those of the row file, where it can be read. -/
def OpenFastIndex.Scored (index : OpenFastIndex) (scores : Scores Score) : Prop :=
  index.lexical = .jsonV2 → ∀ documents, index.readDocuments prims readers = .ok documents →
    ScoresOf documents scores

/-- Every selected document has its text. -/
theorem OpenFastIndex.semanticTexts_complete {index : OpenFastIndex} {scores : Scores Score}
    {texts : List (String × String)} (hscored : index.Scored prims readers scores)
    (h : index.semanticTexts prims readers (distinctSorted (scores.map Prod.fst)) = .ok texts)
    {entry : String × Score} (hentry : entry ∈ scores) : ∃ text, (entry.1, text) ∈ texts := by
  have hid : entry.1 ∈ distinctSorted (scores.map Prod.fst) :=
    mem_distinctSorted.mpr (List.mem_map_of_mem hentry)
  unfold OpenFastIndex.semanticTexts at h
  split at h
  · next hlexical =>
    obtain ⟨documents, hdocuments, h⟩ := bind_eq_ok.mp h
    obtain rfl := pure_eq_ok.mp h
    obtain ⟨document, hmem, heq⟩ :=
      List.mem_map.mp (hscored hlexical documents hdocuments entry hentry)
    refine ⟨document.semanticText, List.mem_map.mpr ⟨document, ?_, by rw [heq]⟩⟩
    exact List.mem_filter.mpr ⟨hmem, decide_eq_true (heq ▸ hid)⟩
  · obtain ⟨stored, -, h⟩ := bind_eq_ok.mp h
    obtain ⟨read, hmem, hread⟩ := exists_mem_of_mapM h hid
    simp only [LexicalTables.semanticText, bind_eq_ok, orThrow_eq_ok, pure_eq_ok] at hread
    obtain ⟨row, -, rfl⟩ := hread
    exact ⟨_, hmem⟩

theorem OpenFastIndex.selectRanked_avoids_aborted {index : OpenFastIndex} {scores : Scores Score}
    (hscored : index.Scored prims readers scores) (filters : SearchFilters) (topN : ℕ)
    (dense lexical : Option (Scores Score)) :
    Avoids .aborted (index.selectRanked prims readers filters topN dense lexical scores) := by
  have htake : index.Scored prims readers (scores.take topN) :=
    fun hlexical documents hdocuments entry hentry =>
      hscored hlexical documents hdocuments entry (List.mem_of_mem_take hentry)
  unfold OpenFastIndex.selectRanked
  refine avoids_bind ?_ fun texts htexts => avoids_bind ?_ fun matched _ => avoids_mapM ?_
  · unfold OpenFastIndex.semanticTexts
    split
    · exact avoids_bind (index.readDocuments_avoids_aborted prims readers) fun _ _ => avoids_pure _
    · refine avoids_bind (avoids_readFile _) fun stored _ => avoids_mapM fun documentId _ => ?_
      exact avoids_bind (avoids_orThrow (by decide)) fun _ _ => avoids_pure _
  · unfold OpenFastIndex.matchingOccurrences
    split
    · exact avoids_pure _
    · exact avoids_bind (avoids_readFile _) fun lookup _ =>
        readMatchingOccurrences_avoids_aborted _ _ _
  · intro entry hentry
    obtain ⟨text, htext⟩ := OpenFastIndex.semanticTexts_complete prims readers htake htexts
      (List.fst_mem_of_mem_zipIdx hentry)
    have hlookup : (texts.reverse.lookup entry.1.1).isSome :=
      List.lookup_isSome_iff.mpr ⟨_, List.mem_reverse.mpr htext, beq_self_eq_true _⟩
    obtain ⟨found, hfound⟩ := Option.isSome_iff_exists.mp hlookup
    unfold describeHit
    dsimp only
    rw [hfound]
    exact avoids_pure _

/-- **A search ends in an answer.** -/
theorem OpenFastIndex.searchInternal_avoids_aborted (index : OpenFastIndex) (mode : SearchMode)
    (queryText : String) (queryVector : QueryVectorInput) (filters : SearchFilters) (topN : ℕ)
    (excluded : List String) :
    Avoids .aborted (index.searchInternal prims readers scoring mode queryText queryVector filters
      topN excluded) := by
  unfold OpenFastIndex.searchInternal
  iterate 2 refine avoids_bind (avoids_throwIf (by decide)) fun _ _ => ?_
  refine avoids_bind ?_ fun eligible _ => ?_
  · unfold OpenFastIndex.eligible
    split
    · exact avoids_pure _
    · exact avoids_bind (avoids_readFile _) fun _ _ => avoids_pure _
  cases mode with
  | dense =>
    refine avoids_bind (index.queryValues_avoids_aborted scoring queryVector) fun values _ => ?_
    refine avoids_bind (index.readDocuments_avoids_aborted prims readers) fun documents hread => ?_
    refine avoids_bind (index.denseScores_avoids_aborted scoring _ _ _ _) fun dense hdense => ?_
    refine index.selectRanked_avoids_aborted prims readers (fun _ others hothers => ?_) _ _ _ _
    obtain rfl := Except.ok.inj (hread.symm.trans hothers)
    exact OpenFastIndex.denseScores_scoresOf scoring hdense
  | lexical =>
    refine avoids_bind (index.lexicalScores_avoids_aborted prims readers scoring _ _)
      fun lexical hlexical => ?_
    exact index.selectRanked_avoids_aborted prims readers (fun hform _ hread =>
      OpenFastIndex.lexicalScores_scoresOf prims readers scoring hform hread hlexical) _ _ _ _
  | fused =>
    refine avoids_bind (index.queryValues_avoids_aborted scoring queryVector) fun values _ => ?_
    refine avoids_bind (index.readDocuments_avoids_aborted prims readers) fun documents hread => ?_
    refine avoids_bind (index.denseScores_avoids_aborted scoring _ _ _ _) fun dense hdense => ?_
    refine avoids_bind (index.lexicalScores_avoids_aborted prims readers scoring _ _)
      fun lexical hlexical => ?_
    refine index.selectRanked_avoids_aborted prims readers (fun hform others hothers => ?_) _ _ _ _
    obtain rfl := Except.ok.inj (hread.symm.trans hothers)
    exact reciprocalRankFusion_scoresOf scoring
      (OpenFastIndex.denseScores_scoresOf scoring hdense)
      (OpenFastIndex.lexicalScores_scoresOf prims readers scoring hform hread hlexical)

theorem OpenFastIndex.readProfileBoundVector_avoids_aborted (index : OpenFastIndex)
    (ordinal : ℕ) : Avoids .aborted (index.readProfileBoundVector scoring ordinal) := by
  unfold OpenFastIndex.readProfileBoundVector
  refine avoids_bind (avoids_throwIf (by decide)) fun _ _ => ?_
  refine avoids_bind (avoids_decodedRow _ _ _) fun values _ => ?_
  exact avoids_bind (avoids_orThrowAs (by decide)) fun _ _ => avoids_pure _

theorem OpenFastIndex.documentVector_avoids_aborted (index : OpenFastIndex)
    (documentId : String) :
    Avoids .aborted (index.documentVector prims readers scoring documentId) := by
  unfold OpenFastIndex.documentVector
  refine avoids_bind (avoids_throwIf (by decide)) fun _ _ => avoids_bind ?_ fun ordinal _ => ?_
  · unfold OpenFastIndex.documentOrdinal
    split
    · exact avoids_bind (avoids_readFile _) fun _ _ => avoids_pure _
    · exact avoids_bind (index.readDocuments_avoids_aborted prims readers) fun _ _ => avoids_pure _
  · cases ordinal with
    | none => exact avoids_pure _
    | some ordinal =>
      exact avoids_bind (index.readProfileBoundVector_avoids_aborted scoring ordinal) fun _ _ =>
        avoids_pure _

theorem OpenFastIndex.similar_avoids_aborted (index : OpenFastIndex) (documentId : String)
    (filters : SearchFilters) (topN : ℕ) (excludeSeed : Bool) :
    Avoids .aborted (index.similar prims readers scoring documentId filters topN excludeSeed) := by
  unfold OpenFastIndex.similar
  refine avoids_bind (index.documentVector_avoids_aborted prims readers scoring _) fun seed _ => ?_
  cases seed with
  | none => exact avoids_pure _
  | some seed =>
    exact avoids_bind (index.searchInternal_avoids_aborted prims readers scoring _ _ _ _ _ _)
      fun _ _ => avoids_pure _

end Search

end LivefireRag.Index
