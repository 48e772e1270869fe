import Mathlib.Algebra.Order.BigOperators.Group.List
import Mathlib.Algebra.Order.Field.Basic
import Mathlib.Tactic.NormNum
import Mathlib.Tactic.Positivity
import LivefireRag.Index.Fused

/-!
# The two lexical forms agree

The JSON form of an index scores document by document and keeps the scores above zero;
the tables score term by term along the postings. Both are given the same documents, and
both end with the same ranking (`lexical_forms_agree`).

The argument is about the pairs of documents and terms. A document has a posting for a
term exactly when its counts have the term, the frequencies that the two writers collect
are one map (`collectedFrequency`), and every term that a document has weighs more than
zero (`bm25_pos`), so that a document passes the cut at zero exactly when some term of the
query reached it.
-/

namespace LivefireRag.Index

open Machine Fallible Grouping Tables

/-! ### Weights -/

section Weights

variable {𝕜 : Type} [Field 𝕜] [LinearOrder 𝕜] [IsStrictOrderedRing 𝕜] (ln : 𝕜 → 𝕜)

/-- The weight of a term in a document, in exact arithmetic. -/
def bm25 (documentCount documentFrequency termFrequency length : ℕ) (averageLength : ℕ × ℕ) : 𝕜 :=
  let idf := ln (((documentCount : 𝕜) - documentFrequency + 0.5) / (documentFrequency + 0.5) + 1)
  let tf := (termFrequency : 𝕜)
  idf * (tf * 2.2) / (tf + 1.2 * (1 - 0.75 +
    0.75 * length / max ((averageLength.1 : 𝕜) / averageLength.2) 1))

/-- The same search with exact scores. -/
def Scoring.bm25 (scoring : Scoring 𝕜) : Scoring 𝕜 :=
  { scoring with
    zero := 0
    add := fun x y => x + y
    isPositive := fun score => 0 < score
    termScore := Index.bm25 ln
    compare := fun x y => Ord.compare x y }

/-- A term that occurs weighs more than zero. -/
theorem bm25_pos (hln : ∀ x, 1 < x → 0 < ln x) {documentCount documentFrequency termFrequency : ℕ}
    (hfrequency : documentFrequency ≤ documentCount) (hterm : 0 < termFrequency) (length : ℕ)
    (averageLength : ℕ × ℕ) :
    0 < bm25 ln documentCount documentFrequency termFrequency length averageLength := by
  have hcount : (documentFrequency : 𝕜) ≤ documentCount := Nat.cast_le.mpr hfrequency
  have htf : (0 : 𝕜) < termFrequency := Nat.cast_pos.mpr hterm
  have hmax : (0 : 𝕜) < max ((averageLength.1 : 𝕜) / averageLength.2) 1 :=
    lt_max_of_lt_right one_pos
  -- the argument of the logarithm is above one
  have hrare : (0 : 𝕜) < (documentCount - documentFrequency + 0.5) / (documentFrequency + 0.5) := by
    have hnumerator : (0 : 𝕜) < documentCount - documentFrequency + 0.5 :=
      add_pos_of_nonneg_of_pos (sub_nonneg.mpr hcount) (by norm_num)
    positivity
  have hidf := hln _ (lt_add_of_pos_left 1 hrare)
  have hshare : (0 : 𝕜) < 1 - 0.75 + 0.75 * length / max ((averageLength.1 : 𝕜) / averageLength.2)
      1 := add_pos_of_pos_of_nonneg (by norm_num) (by positivity)
  unfold bm25
  positivity

end Weights

/-! ### The terms of a document -/

def FastDocument.terms (document : FastDocument) : SortedMap String ℕ :=
  termCounts document.tokens

/-- A term that is counted occurs. -/
theorem FastDocument.terms_pos {document : FastDocument} {term : String} {n : ℕ}
    (h : document.terms.get? term = some n) : 0 < n := by
  rw [FastDocument.terms, termCounts, get?_collect] at h
  have hone : ∀ value ∈ valuesOf term (document.tokens.map fun token => (token, 1)), value = 1 := by
    intro value hvalue
    obtain ⟨token, -, heq⟩ := List.mem_map.mp (mem_valuesOf.mp hvalue)
    exact (congrArg Prod.snd heq).symm
  generalize valuesOf term (document.tokens.map fun token => (token, 1)) = values at h hone
  cases values with
  | nil => cases h
  | cons value values =>
    have hsum : combineAll (fun x y : ℕ => x + y) (value :: values) = some (value :: values).sum :=
      combineAll_add (List.cons_ne_nil _ _)
    obtain rfl := Option.some.inj (hsum.symm.trans h)
    rw [List.sum_cons, hone value (List.mem_cons_self ..)]
    exact Nat.add_pos_left Nat.one_pos _

/-! ### How many documents have a term -/

/-- The frequencies that either writer collects. -/
def collectedFrequency (documents : List FastDocument) : SortedMap String ℕ :=
  documents.foldl (fun frequency document =>
    addDocumentFrequency frequency document.semanticText) SortedMap.empty

theorem collectedFrequency_eq (documents : List FastDocument) :
    collectedFrequency documents = collect (· + ·)
      (documents.flatMap fun document => document.terms.keys.map fun term => (term, 1)) := by
  rw [collectedFrequency, collect, List.foldl_flatMap]
  simp only [List.foldl_map]
  rfl

/-- How many documents have a term. -/
def frequencyOf (documents : List FastDocument) (term : String) : ℕ :=
  documents.countP fun document => term ∈ document.terms.keys

theorem valuesOf_terms (documents : List FastDocument) (term : String) :
    valuesOf term (documents.flatMap fun document => document.terms.keys.map fun term => (term, 1)) =
      List.replicate (frequencyOf documents term) 1 := by
  induction documents with
  | nil => rfl
  | cons document documents ih =>
    rw [List.flatMap_cons, valuesOf_append, ih, frequencyOf, frequencyOf, List.countP_cons]
    by_cases hterm : term ∈ document.terms.keys
    · have hone : valuesOf term (document.terms.keys.map fun term => (term, 1)) = [1] := by
        have hunique : UniqueOn id document.terms.keys := by
          rw [UniqueOn, List.map_id]
          exact document.terms.nodup_keys
        have hfilter : document.terms.keys.filter (fun key => decide (key = term)) = [term] :=
          hunique.filter_eq hterm
        rw [valuesOf, List.filter_map, List.map_map]
        simp only [Function.comp_def]
        rw [hfilter]
        rfl
      rw [hone, if_pos (decide_eq_true hterm), Nat.add_comm, List.replicate_add]
      rfl
    · have hnone : valuesOf term (document.terms.keys.map fun term => (term, 1)) = [] := by
        refine valuesOf_eq_nil fun pair hpair hkey => hterm ?_
        obtain ⟨key, hmem, rfl⟩ := List.mem_map.mp hpair
        exact hkey ▸ hmem
      rw [hnone, if_neg (by simpa using hterm), List.nil_append, Nat.add_zero]

/-- The frequencies hold the terms that some document has. -/
theorem get?_collectedFrequency (documents : List FastDocument) (term : String) :
    (collectedFrequency documents).get? term =
      if frequencyOf documents term = 0 then none else some (frequencyOf documents term) := by
  rw [collectedFrequency_eq, get?_collect, valuesOf_terms]
  split
  · next hzero =>
    rw [hzero]
    rfl
  · next hne =>
    have hvalues : List.replicate (frequencyOf documents term) 1 ≠ [] := by
      rw [Ne, List.replicate_eq_nil_iff]
      exact hne
    refine (combineAll_add hvalues).trans ?_
    rw [List.sum_replicate, Nat.nsmul_eq_mul, Nat.mul_one]

theorem frequencyOf_le (documents : List FastDocument) (term : String) :
    frequencyOf documents term ≤ documents.length :=
  List.countP_le_length

theorem frequencyOf_pos {documents : List FastDocument} {document : FastDocument}
    (hdocument : document ∈ documents) {term : String} {n : ℕ}
    (hterm : document.terms.get? term = some n) : 0 < frequencyOf documents term :=
  List.countP_pos_iff.mpr ⟨document, hdocument,
    decide_eq_true (SortedMap.mem_keys_iff.mpr ⟨n, hterm⟩)⟩

/-! ### The postings of a term -/

/-- The posting of a term in a document, if the document has the term. -/
def FastDocument.posting? (document : FastDocument) (term : String) : Option PostingRow :=
  (document.terms.get? term).map fun n => ⟨term, document.vectorOrdinal, n⟩

theorem FastDocument.filter_postings (document : FastDocument) (term : String) :
    document.postings.filter (·.term = term) = (document.posting? term).toList := by
  have hvalues : valuesOf term document.terms.entries = (document.terms.get? term).toList :=
    valuesOf_entries _ _
  rw [FastDocument.postings, List.filter_map, FastDocument.posting?, Option.toList_map, ← hvalues,
    valuesOf, List.map_map]
  refine List.map_congr_left fun entry hentry => ?_
  have hterm : entry.1 = term := of_decide_eq_true (List.mem_filter.mp hentry).2
  show PostingRow.mk entry.1 _ _ = PostingRow.mk term _ _
  rw [hterm]

section Tables

variable {sha256 : List UInt8 → Pipeline.Digest} {documents : List FastDocument}

theorem pairwise_ordinals (h : LexicallyWritable documents) :
    documents.Pairwise fun a b => (a.vectorOrdinal : ℕ) < b.vectorOrdinal := by
  rw [List.pairwise_iff_getElem]
  intro i j hi hj hij
  rwa [h.ordinals i _ (List.getElem?_eq_getElem hi), h.ordinals j _ (List.getElem?_eq_getElem hj)]

/-- The postings of a term are those of the documents that have it, in their order. -/
theorem postingsOf_written (h : LexicallyWritable documents) (term : String) :
    (writtenLexicalTables sha256 documents).postingsOf term = documents.filterMap fun document =>
      (document.posting? term).map fun posting => (posting, document.lexicalRow) := by
  have hunique : UniqueOn (fun document : FastDocument => (document.vectorOrdinal : ℕ))
      documents := by
    rw [UniqueOn, List.nodup_iff_pairwise_ne, List.pairwise_map]
    exact (pairwise_ordinals h).imp fun hlt => hlt.ne
  -- joining the documents to a posting finds the one it is from
  have hjoin : ∀ document ∈ documents, ∀ posting ∈ document.posting? term,
      ((documents.map FastDocument.lexicalRow).filter
        (·.documentOrdinal = posting.documentOrdinal)).map (fun row => (posting, row)) =
        [(posting, document.lexicalRow)] := by
    intro document hdocument posting hposting
    obtain ⟨n, -, rfl⟩ := Option.map_eq_some_iff.mp hposting
    have hfilter := hunique.filter_eq hdocument
    rw [List.filter_map]
    exact congrArg (List.map _) (congrArg (List.map FastDocument.lexicalRow) hfilter)
  have hpostings : (writtenLexicalTables sha256 documents).postings.filter (·.term = term) =
      documents.flatMap fun document => (document.posting? term).toList := by
    show (documents.flatMap FastDocument.postings).filter _ = _
    rw [List.filter_flatMap]
    exact congrArg (fun f => documents.flatMap f)
      (funext fun document => document.filter_postings term)
  have hpairs : ((writtenLexicalTables sha256 documents).postings.filter (·.term = term)).flatMap
      (fun posting => ((writtenLexicalTables sha256 documents).documents.filter
        (·.documentOrdinal = posting.documentOrdinal)).map fun row => (posting, row)) =
      documents.filterMap fun document =>
        (document.posting? term).map fun posting => (posting, document.lexicalRow) := by
    rw [hpostings, List.flatMap_assoc, List.filterMap_eq_flatMap_toList]
    refine List.flatMap_congr fun document hdocument => ?_
    cases hposting : document.posting? term with
    | none => rfl
    | some posting =>
      rw [Option.toList_some, List.flatMap_singleton]
      exact hjoin document hdocument posting hposting
  rw [LexicalTables.postingsOf, hpairs]
  refine Ranking.sortBy_of_pairwise ?_
  refine (pairwise_ordinals h).filterMap _ fun a b hlt p hp q hq => ?_
  obtain ⟨_, hposting, rfl⟩ := Option.map_eq_some_iff.mp hp
  obtain ⟨_, hposting', rfl⟩ := Option.map_eq_some_iff.mp hq
  obtain ⟨n, -, rfl⟩ := Option.map_eq_some_iff.mp hposting
  obtain ⟨m, -, rfl⟩ := Option.map_eq_some_iff.mp hposting'
  exact hlt.le

end Tables

/-! ### The scores -/

section Scores

variable {𝕜 : Type} [Field 𝕜] [LinearOrder 𝕜] [IsStrictOrderedRing 𝕜] (ln : 𝕜 → 𝕜)
  (documents : List FastDocument)

/-- The average length, as a fraction. -/
def averageOf : ℕ × ℕ :=
  ((documents.map fun document => document.tokens.length).sum, max documents.length 1)

/-- What a term is worth in a document, if the document has it. -/
def termWorth (document : FastDocument) (term : String) : Option 𝕜 :=
  (document.terms.get? term).map fun n => bm25 ln documents.length (frequencyOf documents term) n
    document.tokens.length (averageOf documents)

/-- What the terms of a query are worth together. -/
def worthOfTerms (terms : List String) (document : FastDocument) : 𝕜 :=
  (terms.map fun term => (termWorth ln documents document term).getD 0).sum

/-- The documents of a ranking before they are sorted: in their order, with scores above
zero. -/
def scoredDocuments (terms : List String) (eligible : EligibleDocuments) : Scores 𝕜 :=
  (documents.filter (eligible.Admits ·.documentId)).filterMap fun document =>
    if 0 < worthOfTerms ln documents terms document then
      some (document.documentId, worthOfTerms ln documents terms document)
    else none

/-- What one term adds to the scores. -/
def termContributions (eligible : EligibleDocuments) (term : String) : Scores 𝕜 :=
  (documents.filter (eligible.Admits ·.documentId)).filterMap fun document =>
    (termWorth ln documents document term).map fun worth => (document.documentId, worth)

variable {ln documents} {scoring : Scoring 𝕜}

theorem termWorth_pos (hln : ∀ x, 1 < x → 0 < ln x) {document : FastDocument} {term : String}
    {worth : 𝕜} (h : termWorth ln documents document term = some worth) : 0 < worth := by
  obtain ⟨n, hterm, rfl⟩ := Option.map_eq_some_iff.mp h
  exact bm25_pos ln hln (frequencyOf_le documents term) (FastDocument.terms_pos hterm) _ _

omit [IsStrictOrderedRing 𝕜] in
theorem worthOfTerms_eq_sum (terms : List String) (document : FastDocument) :
    worthOfTerms ln documents terms document =
      (terms.filterMap (termWorth ln documents document)).sum := by
  induction terms with
  | nil => rfl
  | cons term terms ih =>
    rw [worthOfTerms, List.map_cons, List.sum_cons, List.filterMap_cons]
    cases hworth : termWorth ln documents document term with
    | none => exact (zero_add _).trans ih
    | some worth => rw [List.sum_cons, ← ih, worthOfTerms, Option.getD_some]

/-- A document scores above zero when some term reaches it. -/
theorem worthOfTerms_pos_iff (hln : ∀ x, 1 < x → 0 < ln x) {terms : List String}
    {document : FastDocument} : 0 < worthOfTerms ln documents terms document ↔
      terms.filterMap (termWorth ln documents document) ≠ [] := by
  rw [worthOfTerms_eq_sum]
  constructor
  · intro hpos hnil
    rw [hnil, List.sum_nil] at hpos
    exact lt_irrefl _ hpos
  · refine List.sum_pos _ fun worth hworth => ?_
    obtain ⟨term, -, hterm⟩ := List.mem_filterMap.mp hworth
    exact termWorth_pos hln hterm

omit [IsStrictOrderedRing 𝕜] in
/-- The JSON form gives every document the worth of the terms. -/
theorem LexicalJson.scores_written (query : String) (eligible : EligibleDocuments) :
    LexicalJson.scores (scoring.bm25 ln) ⟨documents.length, averageOf documents,
        collectedFrequency documents, documents.map describedLexicalDocument⟩ query eligible =
      sortScores (scoring.bm25 ln)
        (scoredDocuments ln documents (distinctSorted (tokenize query)) eligible) := by
  have hscore : ∀ document ∈ documents, LexicalJson.documentScore (scoring.bm25 ln)
      ⟨documents.length, averageOf documents, collectedFrequency documents,
        documents.map describedLexicalDocument⟩ (distinctSorted (tokenize query))
        (describedLexicalDocument document) =
      worthOfTerms ln documents (distinctSorted (tokenize query)) document := by
    intro document hdocument
    rw [LexicalJson.documentScore, worthOfTerms, List.sum_eq_foldl]
    refine congrArg (List.foldl (fun x y : 𝕜 => x + y) 0) (List.map_congr_left fun term _ => ?_)
    show (if (document.terms.get? term).getD 0 = 0 then (0 : 𝕜) else bm25 ln documents.length
      (((collectedFrequency documents).get? term).getD 0) ((document.terms.get? term).getD 0)
      (termCounts document.tokens).values.sum (averageOf documents)) = _
    cases hterm : document.terms.get? term with
    | none => rw [termWorth, hterm]; rfl
    | some n =>
      have hn : n ≠ 0 := (FastDocument.terms_pos hterm).ne'
      have hfrequency := frequencyOf_pos hdocument hterm
      rw [termWorth, hterm, Option.getD_some, if_neg hn, get?_collectedFrequency,
        if_neg hfrequency.ne', sum_termCounts]
      rfl
  unfold LexicalJson.scores
  refine congrArg (sortScores (scoring.bm25 ln)) ?_
  show ((documents.map describedLexicalDocument).filter _).filterMap _ = _
  rw [List.filter_map, List.filterMap_map, scoredDocuments]
  refine List.filterMap_congr fun document hdocument => ?_
  have hmem := (List.mem_filter.mp hdocument).1
  show (if decide (0 < LexicalJson.documentScore _ _ _ (describedLexicalDocument document)) then
    some (document.documentId, LexicalJson.documentScore _ _ _ _) else none) = _
  rw [hscore document hmem]
  exact if_congr decide_eq_true_iff rfl rfl

omit [IsStrictOrderedRing 𝕜] in
/-- One term of the tables adds what it contributes. -/
theorem addTerm_written {sha256 : List UInt8 → Pipeline.Digest} (h : LexicallyWritable documents)
    (eligible : EligibleDocuments) (scores : SortedMap String 𝕜) (term : String) :
    addTerm (scoring.bm25 ln) (writtenLexicalTables sha256 documents) eligible documents.length
        (averageOf documents) scores term =
      .ok ((termContributions ln documents eligible term).foldl
        (upsert fun x y => x + y) scores) := by
  have hstats : (writtenLexicalTables sha256 documents).termStats = collectedFrequency documents :=
    rfl
  unfold addTerm
  rw [hstats, get?_collectedFrequency]
  by_cases hzero : frequencyOf documents term = 0
  · -- no document has the term
    have hnone : termContributions ln documents eligible term = [] := by
      refine List.filterMap_eq_nil_iff.mpr fun document hdocument => ?_
      cases hterm : document.terms.get? term with
      | none => rw [termWorth, hterm]; rfl
      | some n =>
        exact absurd hzero (frequencyOf_pos (List.mem_filter.mp hdocument).1 hterm).ne'
    rw [if_pos hzero, hnone]
    rfl
  · have hbound : ¬ (frequencyOf documents term = 0 ∨
        documents.length < frequencyOf documents term) :=
      not_or.mpr ⟨hzero, (frequencyOf_le documents term).not_gt⟩
    rw [if_neg hzero]
    show (throwIf _ _ >>= fun _ => _) = _
    rw [throwIf_bind_of_not hbound, postingsOf_written h]
    have hstep : ∀ entry ∈ documents.filterMap (fun document =>
        (document.posting? term).map fun posting => (posting, document.lexicalRow)),
        ∀ scores : SortedMap String 𝕜, addPosting (scoring.bm25 ln) eligible documents.length (frequencyOf documents term)
          (averageOf documents) scores entry =
        .ok (if eligible.Admits entry.2.documentId then upsert (fun x y => x + y) scores
          (entry.2.documentId, bm25 ln documents.length (frequencyOf documents term)
            entry.1.termFrequency entry.2.length (averageOf documents)) else scores) := by
      intro entry hentry scores
      obtain ⟨document, -, hentry⟩ := List.mem_filterMap.mp hentry
      obtain ⟨posting, hposting, rfl⟩ := Option.map_eq_some_iff.mp hentry
      obtain ⟨n, hterm, rfl⟩ := Option.map_eq_some_iff.mp hposting
      unfold addPosting
      split
      · exact throwIf_bind_of_not (FastDocument.terms_pos hterm).ne'
      · rfl
    rw [foldlM_eq_foldl hstep, List.foldl_filterMap, termContributions, List.foldl_filterMap,
      List.foldl_filter]
    refine congrArg Except.ok (congrArg (fun f => List.foldl f scores documents) ?_)
    ext scores document : 2
    cases hterm : document.terms.get? term with
    | none =>
      rw [FastDocument.posting?, termWorth, hterm]
      exact (ite_self _).symm
    | some n =>
      rw [FastDocument.posting?, termWorth, hterm]
      simp only [decide_eq_true_eq]
      rfl

omit [IsStrictOrderedRing 𝕜] in
/-- What the terms contribute to a document. -/
theorem valuesOf_contributions (hunique : UniqueOn (·.documentId) documents)
    (eligible : EligibleDocuments) (terms : List String) {document : FastDocument}
    (hdocument : document ∈ documents.filter (eligible.Admits ·.documentId)) :
    valuesOf document.documentId (terms.flatMap (termContributions ln documents eligible)) =
      terms.filterMap (termWorth ln documents document) := by
  have hadmitted : UniqueOn (·.documentId) (documents.filter (eligible.Admits ·.documentId)) :=
    hunique.sublist (List.filter_sublist.map _)
  rw [List.flatMap_def, valuesOf_flatten, List.flatMap_map, List.filterMap_eq_flatMap_toList]
  refine List.flatMap_congr fun term _ => ?_
  -- the other documents have other ids
  have hone : (documents.filter (eligible.Admits ·.documentId)).filter
      (fun other => decide (other.documentId = document.documentId)) = [document] :=
    hadmitted.filter_eq hdocument
  have hpairs : (termContributions ln documents eligible term).filter
      (fun pair => decide (pair.1 = document.documentId)) =
      ([document].filterMap fun document => (termWorth ln documents document term).map
        fun worth => (document.documentId, worth)) := by
    rw [← hone, termContributions]
    generalize documents.filter (eligible.Admits ·.documentId) = admitted
    rw [List.filter_filterMap, List.filterMap_filter]
    refine List.filterMap_congr fun other _ => ?_
    cases termWorth ln documents other term with
    | none => exact (ite_self _).symm
    | some worth =>
      by_cases hid : other.documentId = document.documentId <;> simp [hid, Option.filter]
  rw [valuesOf, hpairs]
  cases hworth : termWorth ln documents document term with
  | none => simp [hworth]
  | some worth => simp [hworth]

/-- Collecting what the terms contribute gives the documents that score above zero. -/
theorem entries_contributions (hln : ∀ x, 1 < x → 0 < ln x)
    (hascending : documents.Pairwise fun a b => a.documentId < b.documentId)
    (eligible : EligibleDocuments) (terms : List String) :
    (collect (fun x y => x + y) (terms.flatMap (termContributions ln documents eligible))).entries =
      scoredDocuments ln documents terms eligible := by
  have hunique : UniqueOn (·.documentId) documents := by
    rw [UniqueOn, List.nodup_iff_pairwise_ne, List.pairwise_map]
    exact hascending.imp fun hlt => hlt.ne
  have hsorted : (scoredDocuments ln documents terms eligible).Pairwise fun a b => a.1 < b.1 := by
    refine (hascending.filter _).filterMap _ fun a b hlt p hp q hq => ?_
    split at hp
    · split at hq
      · rw [← Option.some.inj hp, ← Option.some.inj hq]
        exact hlt
      · cases hq
    · cases hp
  suffices hmaps : collect (fun x y => x + y)
      (terms.flatMap (termContributions ln documents eligible)) =
      ⟨scoredDocuments ln documents terms eligible, hsorted⟩ from congrArg SortedMap.entries hmaps
  refine SortedMap.ext_get? fun id => Option.ext fun score => ?_
  refine Iff.trans ?_ SortedMap.get?_eq_some_iff.symm
  show _ ↔ (id, score) ∈ scoredDocuments ln documents terms eligible
  rw [get?_collect, scoredDocuments, List.mem_filterMap]
  have hvalue : ∀ document ∈ documents.filter (eligible.Admits ·.documentId),
      (combineAll (fun x y => x + y) (valuesOf document.documentId
        (terms.flatMap (termContributions ln documents eligible))) = some score ↔
      0 < worthOfTerms ln documents terms document ∧
        worthOfTerms ln documents terms document = score) := by
    intro document hdocument
    rw [valuesOf_contributions hunique eligible terms hdocument, worthOfTerms_pos_iff hln,
      worthOfTerms_eq_sum]
    by_cases hnil : terms.filterMap (termWorth ln documents document) = []
    · rw [hnil]
      exact iff_of_false (fun h => by cases h) fun h => h.1 rfl
    · rw [combineAll_add hnil, Option.some.injEq]
      exact (and_iff_right hnil).symm
  constructor
  · intro hcollected
    -- a collected id is that of a document
    have hkey : id ∈ (collect (fun x y => x + y)
        (terms.flatMap (termContributions ln documents eligible))).keys :=
      SortedMap.mem_keys_iff.mpr ⟨score, (get?_collect _ _).trans hcollected⟩
    obtain ⟨worth, hworth⟩ := mem_keys_collect.mp hkey
    obtain ⟨term, -, hworth⟩ := List.mem_flatMap.mp hworth
    obtain ⟨document, hdocument, hworth⟩ := List.mem_filterMap.mp hworth
    obtain ⟨_, -, heq⟩ := Option.map_eq_some_iff.mp hworth
    obtain rfl : document.documentId = id := congrArg Prod.fst heq
    obtain ⟨hpos, rfl⟩ := (hvalue document hdocument).mp hcollected
    exact ⟨document, hdocument, if_pos hpos⟩
  · rintro ⟨document, hdocument, hscored⟩
    split at hscored
    · next hpos =>
      obtain ⟨rfl, rfl⟩ := Prod.mk.inj (Option.some.inj hscored)
      exact (hvalue document hdocument).mpr ⟨hpos, rfl⟩
    · cases hscored

/-- The tables give the same ranking as the JSON form. -/
theorem LexicalTables.scores_written {sha256 : List UInt8 → Pipeline.Digest}
    (hln : ∀ x, 1 < x → 0 < ln x) (h : LexicallyWritable documents)
    (hascending : documents.Pairwise fun a b => a.documentId < b.documentId) (query : String)
    (eligible : EligibleDocuments) :
    (writtenLexicalTables sha256 documents).scores (scoring.bm25 ln) documents.length
        (documents.map fun document => document.tokens.length).sum query eligible =
      .ok (sortScores (scoring.bm25 ln)
        (scoredDocuments ln documents (distinctSorted (tokenize query)) eligible)) := by
  rw [← entries_contributions hln hascending]
  unfold LexicalTables.scores
  dsimp only
  split
  · next hnil =>
    rw [hnil, List.flatMap_nil]
    show Except.ok [] = Except.ok (sortScores (scoring.bm25 ln) [])
    rw [sortScores, List.mergeSort_nil]
  · have hterms : (distinctSorted (tokenize query)).foldlM
        (addTerm (scoring.bm25 ln) (writtenLexicalTables sha256 documents) eligible
          documents.length (averageOf documents)) SortedMap.empty =
        .ok ((distinctSorted (tokenize query)).foldl (fun scores term =>
          (termContributions ln documents eligible term).foldl (upsert fun x y => x + y) scores)
          SortedMap.empty) :=
      foldlM_eq_foldl fun term _ scores => addTerm_written h eligible scores term
    refine bind_eq_ok.mpr ⟨_, hterms, ?_⟩
    rw [collect, List.foldl_flatMap]
    rfl

end Scores

/-! ### The two files of one list of documents -/

section Files

variable {prims : Pipeline.Primitives} {documents : List FastDocument}

theorem writeLexical_jsonV2 {file : LexicalFile} : writeLexical prims .jsonV2
    (describedSummary prims.sha256 true documents) = .ok file ↔
      file = .json ⟨documents.length, averageOf documents, collectedFrequency documents,
        documents.map describedLexicalDocument⟩ := by
  have hrows : (describedSummary prims.sha256 true documents).batches.flatten = documents :=
    RowWriter.flatten_close_ofRows documents
  rw [writeLexical, hrows]
  have hrun := writeLexicalFromDocuments_eq documents documents.length
    (documents.map fun document => document.tokens.length).sum (collectedFrequency documents)
  show (writeLexicalFromDocuments (documents.map .ok) documents.length
    (documents.map fun document => document.tokens.length).sum (collectedFrequency documents) >>=
      fun content => pure (LexicalFile.json content)) = .ok file ↔ _
  rw [hrun, ok_bind, pure_eq_ok]
  exact eq_comm

theorem writeLexical_sqliteV3 {file : LexicalFile} : writeLexical prims .sqliteV3
    (describedSummary prims.sha256 false documents) = .ok file ↔
      LexicallyWritable documents ∧ file = .sqlite (writtenLexicalTables prims.sha256 documents) := by
  have hrows : (describedSummary prims.sha256 false documents).batches.flatten = documents :=
    RowWriter.flatten_close_ofRows documents
  rw [writeLexical, hrows]
  simp only [describedSummary, bind_eq_ok, writeSqliteLexicalFromDocuments_eq_ok, pure_eq_ok]
  constructor
  · rintro ⟨_, ⟨h, rfl⟩, rfl⟩
    exact ⟨h, rfl⟩
  · rintro ⟨h, rfl⟩
    exact ⟨_, ⟨h, rfl⟩, rfl⟩

end Files

/-- **The two lexical forms agree.** Over the files that the two writers make of the same
documents, with the counts that are noted in the tables, every query has the same ranking,
whatever documents it is limited to. The logarithm may be any function that is positive
above one. -/
theorem lexical_forms_agree {𝕜 : Type} [Field 𝕜] [LinearOrder 𝕜] [IsStrictOrderedRing 𝕜]
    {ln : 𝕜 → 𝕜} (hln : ∀ x, 1 < x → 0 < ln x) (scoring : Scoring 𝕜) {prims : Pipeline.Primitives}
    {stream : List (Result FastDocument)} {summary summary' : DocumentWriteSummary}
    {lookup lookup' : OccurrenceLookup} {json : LexicalJson} {tables : LexicalTables}
    (hdocuments : writeDocumentsStreaming prims.sha256 stream createOccurrenceLookup true =
      .ok (summary, lookup))
    (hjson : writeLexical prims .jsonV2 summary = .ok (.json json))
    (hdocuments' : writeDocumentsStreaming prims.sha256 stream createOccurrenceLookup false =
      .ok (summary', lookup'))
    (htables : writeLexical prims .sqliteV3 summary' = .ok (.sqlite tables)) :
    ∃ countText documentCount lengthText totalLength,
      (readMetadata tables.metadata "document_count" = .ok countText ∧
        parseU64 countText = some documentCount) ∧
      (readMetadata tables.metadata "total_length" = .ok lengthText ∧
        parseU64 lengthText = some totalLength) ∧
      ∀ query eligible, tables.scores (scoring.bm25 ln) documentCount totalLength query eligible =
        .ok (json.scores (scoring.bm25 ln) query eligible) := by
  obtain ⟨documents, rfl, haccepted, hwritten⟩ := writeDocumentsStreaming_eq_ok.mp hdocuments
  obtain ⟨rfl, -⟩ := Prod.mk.inj hwritten
  obtain ⟨documents', hstream, -, hwritten'⟩ := writeDocumentsStreaming_eq_ok.mp hdocuments'
  obtain rfl := List.map_injective_iff.mpr (fun a b => Except.ok.inj) hstream
  obtain ⟨rfl, -⟩ := Prod.mk.inj hwritten'
  obtain rfl := LexicalFile.json.inj (writeLexical_jsonV2.mp hjson)
  obtain ⟨hwritable, htables⟩ := writeLexical_sqliteV3.mp htables
  obtain rfl := LexicalFile.sqlite.inj htables
  refine ⟨_, documents.length, _, _, ⟨rfl, parseU64_toString haccepted.length_lt⟩,
    ⟨rfl, parseU64_toString hwritable.total⟩, fun query eligible => ?_⟩
  rw [LexicalTables.scores_written hln hwritable haccepted.ascending, LexicalJson.scores_written]

/-- Two documents share a term. -/
def sampleTexts : List FastDocument :=
  [⟨"a", sampleDigestText, "kind", "lookup user", "[]", "[]", 1, 0⟩,
    ⟨"b", sampleDigestText, "kind", "user login user", "[]", "[]", 1, 1⟩]

theorem sampleTexts_accepted (collect : Bool) : DocumentsAccepted collect sampleTexts := by
  refine ⟨by decide, by decide, by decide, fun i document hi => ?_, by decide, by decide,
    fun _ => by decide +kernel⟩
  match i with
  | 0 => exact Option.some.inj hi ▸ rfl
  | 1 => exact Option.some.inj hi ▸ rfl
  | _ + 2 => cases hi

theorem sampleTexts_writable : LexicallyWritable sampleTexts :=
  ⟨(sampleTexts_accepted true).ordinals, by decide, by decide, by decide +kernel,
    by decide +kernel⟩

/-- The files of the two documents rank alike. -/
theorem two_documents_agree : ∃ documentCount totalLength, ∀ query eligible,
    (writtenLexicalTables sampleAssemblyPrimitives.sha256 sampleTexts).scores
        (sampleScoring.bm25 fun x => x - 1) documentCount totalLength query eligible =
      .ok (LexicalJson.scores (sampleScoring.bm25 fun x => x - 1)
        ⟨sampleTexts.length, averageOf sampleTexts, collectedFrequency sampleTexts,
          sampleTexts.map describedLexicalDocument⟩ query eligible) := by
  have hwritten : ∀ collect, writeDocumentsStreaming sampleAssemblyPrimitives.sha256
      (sampleTexts.map .ok) createOccurrenceLookup collect = .ok _ := fun collect =>
    writeDocumentsStreaming_eq_ok.mpr ⟨sampleTexts, rfl, sampleTexts_accepted collect, rfl⟩
  obtain ⟨_, documentCount, _, totalLength, -, -, hagree⟩ := lexical_forms_agree
    (fun x hx => sub_pos.mpr hx) sampleScoring (hwritten true)
    (writeLexical_jsonV2.mpr rfl) (hwritten false)
    (writeLexical_sqliteV3.mpr ⟨sampleTexts_writable, rfl⟩)
  exact ⟨documentCount, totalLength, hagree⟩

end LivefireRag.Index
