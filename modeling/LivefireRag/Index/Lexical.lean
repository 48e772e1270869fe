import Mathlib.Algebra.Order.BigOperators.Group.List
import LivefireRag.Lib.Framing
import LivefireRag.Lib.Grouping
import LivefireRag.Lib.Streams
import LivefireRag.Lib.Text
import LivefireRag.Index.Basic
import LivefireRag.Pipeline.Basic

/-!
# The lexical part of an index

The semantic text of a document is cut into terms (`tokenize`), and an index keeps how
often each term occurs in each document: in one JSON document (`LexicalJson`), or in
database tables (`LexicalTables`) whose primary keys, unique columns and references are
checked row by row.

`writeSqliteLexicalFromDocuments_eq_ok` says when the tables are written: documents with
distinct ids and consecutive ordinals never meet a key twice, so only the counters can
refuse them.
-/

namespace LivefireRag.Index

open Machine Fallible Grouping

/-! ### Terms -/

/-- The letters, digits and underscores in lower case, a space before a capital that
follows a small letter, and a space for every other character. -/
def normalizedChars : Bool → List Char → List Char
  | _, [] => []
  | previousLower, c :: cs =>
    if c.isAlphanum ∨ c = '_' then
      (if c.isUpper ∧ previousLower then [' '] else []) ++
        c.toLower :: normalizedChars c.isLower cs
    else ' ' :: normalizedChars false cs

def tokenize (text : String) : List String :=
  (((normalizedChars false text.toList).splitOn ' ').filter (· ≠ [])).map String.ofList

example : tokenize "lookupUser(id_2), twice" = ["lookup", "user", "id_2", "twice"] := by decide

/-- What a term is made of: small letters, digits and underscores. -/
def IsTermChar (c : Char) : Prop := c.isLower ∨ c.isDigit ∨ c = '_'

instance : DecidablePred IsTermChar := fun c => by unfold IsTermChar; infer_instance

/-- Every character that is no letter, digit or underscore ends a term. -/
def IsSeparator (c : Char) : Prop := ¬ (c.isAlphanum ∨ c = '_')

theorem not_isTermChar_space : ¬ IsTermChar ' ' := by
  rintro (h | h | h) <;> exact absurd h (by decide)

theorem toNat_lt_of_isAlphanum {c : Char} (h : c.isAlphanum ∨ c = '_') : c.toNat < 128 := by
  rcases h with h | rfl
  · simp only [Text.isAlphanum_iff, Text.isUpper_iff, Text.isLower_iff, Char.isDigit,
      Bool.and_eq_true, decide_eq_true_eq, ge_iff_le, UInt32.le_iff_toNat_le] at h
    show c.val.toNat < 128
    rcases h with (⟨-, h⟩ | ⟨-, h⟩) | ⟨-, h⟩ <;> exact h.trans_lt (by decide)
  · decide

theorem IsTermChar.isAlphanum_or {c : Char} (h : IsTermChar c) : c.isAlphanum ∨ c = '_' := by
  rcases h with hlower | hdigit | rfl
  · exact .inl (Text.isAlphanum_iff.mpr (.inl (.inr hlower)))
  · exact .inl (Text.isAlphanum_iff.mpr (.inr hdigit))
  · exact .inr rfl

/-- The tables of the ASCII letters, digits and the underscore. -/
theorem ascii_terms : ∀ n < 128,
    ((Char.ofNat n).isAlphanum ∨ Char.ofNat n = '_' → IsTermChar (Char.ofNat n).toLower) ∧
      (IsTermChar (Char.ofNat n) →
        ¬ (Char.ofNat n).isUpper ∧ (Char.ofNat n).toLower = Char.ofNat n) := by
  decide +kernel

theorem isTermChar_toLower {c : Char} (h : c.isAlphanum ∨ c = '_') : IsTermChar c.toLower := by
  have hascii := (ascii_terms c.toNat (toNat_lt_of_isAlphanum h)).1
  rw [Char.ofNat_toNat] at hascii
  exact hascii h

theorem IsTermChar.toLower_eq {c : Char} (h : IsTermChar c) : ¬ c.isUpper ∧ c.toLower = c := by
  have hascii := (ascii_terms c.toNat (toNat_lt_of_isAlphanum h.isAlphanum_or)).2
  rw [Char.ofNat_toNat] at hascii
  exact hascii h

theorem isTermChar_of_mem_normalizedChars {previousLower : Bool} {cs : List Char} {c : Char}
    (h : c ∈ normalizedChars previousLower cs) (hc : c ≠ ' ') : IsTermChar c := by
  induction cs generalizing previousLower with
  | nil => exact absurd h List.not_mem_nil
  | cons d cs ih =>
    rw [normalizedChars] at h
    split at h
    · next hd =>
      rcases List.mem_append.mp h with hgap | hrest
      · split at hgap
        · exact absurd (List.mem_singleton.mp hgap) hc
        · exact absurd hgap List.not_mem_nil
      · rcases List.mem_cons.mp hrest with rfl | htail
        · exact isTermChar_toLower hd
        · exact ih htail
    · rcases List.mem_cons.mp h with hspace | htail
      · exact absurd hspace hc
      · exact ih htail

/-- A separator forgets what came before it. -/
theorem normalizedChars_append {c : Char} (hc : IsSeparator c) (previousLower : Bool)
    (as bs : List Char) : normalizedChars previousLower (as ++ c :: bs) =
      normalizedChars previousLower as ++ ' ' :: normalizedChars false bs := by
  induction as generalizing previousLower with
  | nil =>
    show normalizedChars previousLower (c :: bs) = ' ' :: normalizedChars false bs
    rw [normalizedChars]
    exact if_neg hc
  | cons a as ih =>
    rw [List.cons_append, normalizedChars, normalizedChars]
    split
    · rw [ih, List.append_assoc, List.cons_append]
    · rw [ih, List.cons_append]

/-- Terms and the spaces between them stay as they are. -/
theorem normalizedChars_eq_self {previousLower : Bool} {cs : List Char}
    (h : ∀ c ∈ cs, c ≠ ' ' → IsTermChar c) : normalizedChars previousLower cs = cs := by
  induction cs generalizing previousLower with
  | nil => rfl
  | cons c cs ih =>
    have htail := fun b => @ih b fun d hd => h d (List.mem_cons_of_mem c hd)
    rw [normalizedChars]
    by_cases hspace : c = ' '
    · subst hspace
      rw [if_neg (by decide), htail]
    · -- no capital is left that could open a gap
      have hterm := h c List.mem_cons_self hspace
      rw [if_pos hterm.isAlphanum_or, if_neg fun hgap => hterm.toLower_eq.1 hgap.1,
        hterm.toLower_eq.2, htail, List.nil_append]

theorem toList_of_mem_tokenize {text token : String} (h : token ∈ tokenize text) :
    token.toList ≠ [] ∧ token.toList ∈ (normalizedChars false text.toList).splitOn ' ' := by
  obtain ⟨piece, hpiece, rfl⟩ := List.mem_map.mp h
  obtain ⟨hmem, hne⟩ := List.mem_filter.mp hpiece
  rw [String.toList_ofList]
  exact ⟨of_decide_eq_true hne, hmem⟩

theorem isTermChar_of_mem_token {text token : String} (h : token ∈ tokenize text) {c : Char}
    (hc : c ∈ token.toList) : IsTermChar c := by
  have hpiece := (toList_of_mem_tokenize h).2
  have hne : c ≠ ' ' := fun hspace => Framing.notMem_of_mem_splitOn hpiece (hspace ▸ hc)
  have hin : c ∈ normalizedChars false text.toList := by
    rw [← @List.intercalate_splitOn _ (normalizedChars false text.toList) _ _ ' ']
    exact (Framing.mem_intercalate hne).mpr ⟨_, hpiece, hc⟩
  exact isTermChar_of_mem_normalizedChars hin hne

theorem tokenize_append {c : Char} (hc : IsSeparator c) (a b : String) :
    tokenize (a ++ String.singleton c ++ b) = tokenize a ++ tokenize b := by
  have hchars : (a ++ String.singleton c ++ b).toList = a.toList ++ c :: b.toList := by
    rw [String.toList_append, String.toList_append, String.toList_singleton, List.append_assoc]
    rfl
  rw [tokenize, hchars, normalizedChars_append hc, List.splitOn_append_cons_self,
    List.filter_append, List.map_append]
  rfl

/-- Terms that are joined by spaces are read back. -/
theorem tokenize_intercalate {tokens : List String}
    (h : ∀ token ∈ tokens, token ≠ "" ∧ ∀ c ∈ token.toList, IsTermChar c) :
    tokenize (" ".intercalate tokens) = tokens := by
  rcases List.eq_nil_or_concat tokens with rfl | hcons
  · decide
  have hne : tokens.map String.toList ≠ [] := by
    obtain ⟨before, last, rfl⟩ := hcons
    simp
  have hspace : ∀ piece ∈ tokens.map String.toList, ' ' ∉ piece := by
    intro piece hpiece hin
    obtain ⟨token, htoken, rfl⟩ := List.mem_map.mp hpiece
    exact not_isTermChar_space ((h token htoken).2 ' ' hin)
  have hchars : ∀ c ∈ [' '].intercalate (tokens.map String.toList), c ≠ ' ' → IsTermChar c := by
    intro c hc hne'
    obtain ⟨piece, hpiece, hin⟩ := (Framing.mem_intercalate hne').mp hc
    obtain ⟨token, htoken, rfl⟩ := List.mem_map.mp hpiece
    exact (h token htoken).2 c hin
  have hkept : (tokens.map String.toList).filter (· ≠ []) = tokens.map String.toList := by
    refine List.filter_eq_self.mpr fun piece hpiece => decide_eq_true ?_
    obtain ⟨token, htoken, rfl⟩ := List.mem_map.mp hpiece
    exact fun hempty => (h token htoken).1 (String.toList_eq_nil_iff.mp hempty)
  rw [tokenize, String.toList_intercalate, show " ".toList = [' '] from rfl,
    normalizedChars_eq_self hchars, List.splitOn_intercalate ' ' hspace hne, hkept, List.map_map]
  exact (List.map_congr_left fun token _ => String.ofList_toList).trans (List.map_id tokens)

/-- **Terms are stable and compositional.** They are words over the small letters, digits and
underscores, they are read back when joined by spaces, and a separator cuts a text into
parts that are read on their own. -/
theorem tokenize_stable :
    (∀ text, ∀ token ∈ tokenize text, token ≠ "" ∧ ∀ c ∈ token.toList, IsTermChar c) ∧
    (∀ text, tokenize (" ".intercalate (tokenize text)) = tokenize text) ∧
    ∀ a b c, IsSeparator c → tokenize (a ++ String.singleton c ++ b) = tokenize a ++ tokenize b := by
  have hterms : ∀ text, ∀ token ∈ tokenize text,
      token ≠ "" ∧ ∀ c ∈ token.toList, IsTermChar c := by
    intro text token htoken
    refine ⟨?_, fun c hc => isTermChar_of_mem_token htoken hc⟩
    rintro rfl
    exact (toList_of_mem_tokenize htoken).1 rfl
  refine ⟨hterms, fun text => tokenize_intercalate (hterms text), ?_⟩
  intro a b c hc
  exact tokenize_append hc a b

/-- The parts of a call are terms of their own, however its words are capitalised. -/
theorem tokenize_call : tokenize ("lookupUser" ++ String.singleton '(' ++ "ID_2") =
    tokenize "lookupUser" ++ tokenize "ID_2" :=
  tokenize_stable.2.2 _ _ _ (by decide : ¬ ('('.isAlphanum ∨ '(' = '_'))

/-- How often each term occurs. -/
def termCounts (tokens : List String) : SortedMap String ℕ :=
  collect (· + ·) (tokens.map fun token => (token, 1))

/-- How many documents have each term. -/
def addDocumentFrequency (frequency : SortedMap String ℕ) (semanticText : String) :
    SortedMap String ℕ :=
  (termCounts (tokenize semanticText)).keys.foldl (fun m term => upsert (· + ·) m (term, 1))
    frequency

/-! ### One JSON document -/

structure LexicalDocument where
  documentId : String
  length : ℕ
  terms : SortedMap String ℕ

/-- The average length is kept as the fraction that it is computed from. -/
structure LexicalJson where
  documentCount : ℕ
  averageLength : ℕ × ℕ
  documentFrequency : SortedMap String ℕ
  documents : List LexicalDocument

/-- One row of the documents file. -/
def lexicalDocument (document : Result FastDocument) : Result LexicalDocument := do
  let document ← document
  let terms := termCounts (tokenize document.semanticText)
  return ⟨document.documentId, terms.values.sum, terms⟩

def writeLexicalFromDocuments (documents : List (Result FastDocument))
    (documentCount totalLength : ℕ) (documentFrequency : SortedMap String ℕ) :
    Result LexicalJson := do
  let documents ← documents.mapM lexicalDocument
  return ⟨documentCount, (totalLength, max documentCount 1), documentFrequency, documents⟩

/-! ### Database tables -/

def sqliteLexicalSchema := "sqlite-inverted-bm25-v1"

structure LexicalDocumentRow where
  documentOrdinal : ℕ
  documentId : String
  semanticText : String
  length : ℕ
  deriving DecidableEq

structure PostingRow where
  term : String
  documentOrdinal : ℕ
  termFrequency : ℕ
  deriving DecidableEq

structure LexicalTables where
  documents : List LexicalDocumentRow
  postings : List PostingRow
  termStats : SortedMap String ℕ
  metadata : List (String × String)

def LexicalTables.empty : LexicalTables := ⟨[], [], SortedMap.empty, []⟩

/-- Conversion to a signed integer of 64 bits. -/
def toI64 (n : ℕ) : Option ℕ := if n < 2 ^ 63 then some n else none

@[simp] theorem toI64_eq_some {n m : ℕ} : toI64 n = some m ↔ n < 2 ^ 63 ∧ n = m := by
  unfold toI64
  split <;> simp_all

/-- `document_ordinal` is the primary key and `document_id` is unique. -/
def LexicalTables.insertDocument (tables : LexicalTables) (row : LexicalDocumentRow) :
    Result LexicalTables := do
  throwIf (row.documentOrdinal ∈ tables.documents.map (·.documentOrdinal))
    (.sqlite "UNIQUE constraint failed: documents.document_ordinal")
  throwIf (row.documentId ∈ tables.documents.map (·.documentId))
    (.sqlite "UNIQUE constraint failed: documents.document_id")
  return { tables with documents := tables.documents ++ [row] }

/-- `(term, document_ordinal)` is the primary key, and the ordinal is one of the
documents. -/
def LexicalTables.insertPosting (tables : LexicalTables) (row : PostingRow) :
    Result LexicalTables := do
  throwIf ((row.term, row.documentOrdinal) ∈
      tables.postings.map fun posting => (posting.term, posting.documentOrdinal))
    (.sqlite "UNIQUE constraint failed: postings.term, postings.document_ordinal")
  throwIf (row.documentOrdinal ∉ tables.documents.map (·.documentOrdinal))
    (.sqlite "FOREIGN KEY constraint failed")
  return { tables with postings := tables.postings ++ [row] }

/-- One more document has the term. -/
def LexicalTables.updateFrequency (tables : LexicalTables) (term : String) : LexicalTables :=
  { tables with termStats := upsert (· + ·) tables.termStats (term, 1) }

/-- One term of a document. -/
def insertTerm (documentOrdinal : ℕ) (tables : LexicalTables) (entry : String × ℕ) :
    Result LexicalTables := do
  let termFrequency ← orThrow (toI64 entry.2) (.invalid "lexical term frequency")
  let tables ← tables.insertPosting ⟨entry.1, documentOrdinal, termFrequency⟩
  return tables.updateFrequency entry.1

structure LexicalScan where
  tables : LexicalTables
  documentCount : ℕ
  totalLength : ℕ
  orderMaterial : List UInt8

def LexicalScan.empty : LexicalScan := ⟨.empty, 0, 0, []⟩

/-- What a document contributes to the digest of the order. -/
def documentOrderBytes (document : FastDocument) : List UInt8 :=
  Text.utf8 document.documentId ++ [0]

/-- One row of the documents file. -/
def writeLexicalDocument (scan : LexicalScan) (document : Result FastDocument) :
    Result LexicalScan := do
  let document ← document
  throwIf ((document.vectorOrdinal : ℕ) ≠ scan.documentCount) (.invalid "lexical document ordinal")
  let terms := termCounts (tokenize document.semanticText)
  let length ← checkedSum 64 (.invalid "lexical token count") terms.values
  let ordinal ← orThrow (toI64 document.vectorOrdinal) (.invalid "lexical document ordinal")
  let signedLength ← orThrow (toI64 length) (.invalid "lexical token count")
  let tables ← scan.tables.insertDocument
    ⟨ordinal, document.documentId, document.semanticText, signedLength⟩
  let tables ← terms.entries.foldlM (insertTerm ordinal) tables
  let documentCount ← orThrow (checkedAdd 64 scan.documentCount 1)
    (.invalid "lexical document count")
  let totalLength ← orThrow (checkedAdd 64 scan.totalLength length)
    (.invalid "lexical token count")
  return ⟨tables, documentCount, totalLength, scan.orderMaterial ++ documentOrderBytes document⟩

variable (sha256 : List UInt8 → Pipeline.Digest)

def writeSqliteLexicalFromDocuments (documents : List (Result FastDocument))
    (expectedDocumentCount : ℕ) (documentOrderSha256 : String) : Result LexicalTables := do
  let scan ← documents.foldlM writeLexicalDocument LexicalScan.empty
  throwIf (scan.documentCount ≠ expectedDocumentCount) (.invalid "lexical document count")
  throwIf ((sha256 scan.orderMaterial).val ≠ documentOrderSha256)
    (.invalid "lexical document order")
  return { scan.tables with metadata := [
    ("schema", sqliteLexicalSchema), ("document_count", toString scan.documentCount),
    ("total_length", toString scan.totalLength),
    ("document_order_sha256", (sha256 scan.orderMaterial).val),
    ("tokenizer", "ascii_camel_lower_v1"), ("k1", "1.2"), ("b", "0.75")] }

/-! ### What is written -/

/-- One document of the JSON form. -/
def describedLexicalDocument (document : FastDocument) : LexicalDocument :=
  ⟨document.documentId, (termCounts (tokenize document.semanticText)).values.sum,
    termCounts (tokenize document.semanticText)⟩

theorem writeLexicalFromDocuments_eq (documents : List FastDocument)
    (documentCount totalLength : ℕ) (documentFrequency : SortedMap String ℕ) :
    writeLexicalFromDocuments (documents.map .ok) documentCount totalLength documentFrequency =
      .ok ⟨documentCount, (totalLength, max documentCount 1), documentFrequency,
        documents.map describedLexicalDocument⟩ := by
  have hrows : (documents.map .ok).mapM lexicalDocument =
      .ok (documents.map describedLexicalDocument) := by
    rw [List.mapM_map]
    exact mapM_eq_map fun document _ => rfl
  rw [writeLexicalFromDocuments, hrows, ok_bind]
  rfl

theorem sum_termCounts (tokens : List String) : (termCounts tokens).values.sum = tokens.length := by
  rw [termCounts, sum_values_collect, List.map_map]
  simp [Function.comp_def]

theorem le_length_of_mem_termCounts {tokens : List String} {entry : String × ℕ}
    (h : entry ∈ (termCounts tokens).entries) : entry.2 ≤ tokens.length := by
  rw [← sum_termCounts]
  exact List.le_sum_of_mem (List.mem_map_of_mem h)

/-- The tokens of a document. -/
def FastDocument.tokens (document : FastDocument) : List String := tokenize document.semanticText

def FastDocument.lexicalRow (document : FastDocument) : LexicalDocumentRow :=
  ⟨document.vectorOrdinal, document.documentId, document.semanticText, document.tokens.length⟩

def FastDocument.postings (document : FastDocument) : List PostingRow :=
  (termCounts document.tokens).entries.map fun entry =>
    ⟨entry.1, document.vectorOrdinal, entry.2⟩

/-- The tables of the documents so far. -/
def describedLexicalTables (documents : List FastDocument) : LexicalTables where
  documents := documents.map FastDocument.lexicalRow
  postings := documents.flatMap FastDocument.postings
  termStats := documents.foldl (fun stats document =>
    addDocumentFrequency stats document.semanticText) SortedMap.empty
  metadata := []

def describedLexicalScan (documents : List FastDocument) : LexicalScan where
  tables := describedLexicalTables documents
  documentCount := documents.length
  totalLength := (documents.map fun document => document.tokens.length).sum
  orderMaterial := documents.flatMap documentOrderBytes

/-- The terms of a document are inserted when its ordinal is that of a document without
postings. -/
theorem foldlM_insertTerm {ordinal : ℕ} {entries : List (String × ℕ)} {tables : LexicalTables}
    (hdocument : ordinal ∈ tables.documents.map (·.documentOrdinal))
    (hfrequency : ∀ entry ∈ entries, entry.2 < 2 ^ 63) (hnodup : (entries.map Prod.fst).Nodup)
    (hfresh : ∀ posting ∈ tables.postings, posting.documentOrdinal = ordinal →
      posting.term ∉ entries.map Prod.fst) :
    entries.foldlM (insertTerm ordinal) tables = .ok { tables with
      postings := tables.postings ++ entries.map fun entry => ⟨entry.1, ordinal, entry.2⟩
      termStats := (entries.map Prod.fst).foldl (fun m term => upsert (· + ·) m (term, 1))
        tables.termStats } := by
  induction entries generalizing tables with
  | nil => simp
  | cons entry entries ih =>
    obtain ⟨hlt, hrest⟩ := List.forall_mem_cons.mp hfrequency
    rw [List.map_cons, List.nodup_cons] at hnodup
    have hstep : insertTerm ordinal tables entry = .ok { tables with
        postings := tables.postings ++ [⟨entry.1, ordinal, entry.2⟩]
        termStats := upsert (· + ·) tables.termStats (entry.1, 1) } := by
      simp only [insertTerm, LexicalTables.insertPosting, bind_eq_ok, exists_unit, orThrow_eq_ok,
        toI64_eq_some, throwIf_eq_ok, pure_eq_ok, not_not]
      refine ⟨_, ⟨hlt, rfl⟩, _, ⟨?_, hdocument, rfl⟩, rfl⟩
      rw [List.mem_map]
      rintro ⟨posting, hposting, heq⟩
      obtain ⟨hterm, hordinal⟩ := Prod.mk.inj heq
      exact hfresh posting hposting hordinal (hterm ▸ List.mem_cons_self ..)
    rw [List.foldlM_cons, hstep, ok_bind]
    refine (ih ?_ hrest hnodup.2 fun posting hposting hordinal hterm => ?_).trans ?_
    · exact hdocument
    · rcases List.mem_append.mp hposting with hold | hnew
      · exact hfresh posting hold hordinal (List.mem_cons_of_mem _ hterm)
      · rw [List.mem_singleton.mp hnew] at hterm
        exact hnodup.1 hterm
    · simp only [List.append_assoc, List.singleton_append, List.map_cons, List.foldl_cons]

/-- What is asked of a document after those before it. -/
structure LexicalStep (before : List FastDocument) (document : FastDocument) : Prop where
  ordinal : (document.vectorOrdinal : ℕ) = before.length
  ordinal_lt : before.length < 2 ^ 63
  fresh : document.documentId ∉ before.map (·.documentId)
  length_lt : document.tokens.length < 2 ^ 63
  total_lt : (before.map fun document => document.tokens.length).sum + document.tokens.length <
    2 ^ 64

/-- The ordinals of admitted documents are below their number. -/
theorem vectorOrdinal_lt {before : List FastDocument} (hbefore : Admitted LexicalStep before)
    {document : FastDocument} (h : document ∈ before) :
    (document.vectorOrdinal : ℕ) < before.length := by
  obtain ⟨i, hi⟩ := List.getElem?_of_mem h
  have hordinal := (admitted_position_iff (p := fun i document =>
    (document.vectorOrdinal : ℕ) = i)).mp
    (fun pre x post hsplit => (hbefore pre x post hsplit).ordinal) i document hi
  rw [hordinal]
  exact (List.getElem?_eq_some_iff.mp hi).1

theorem foldlM_insertTerm_document {before : List FastDocument} {document : FastDocument}
    (hbefore : Admitted LexicalStep before)
    (hordinal : (document.vectorOrdinal : ℕ) = before.length)
    (hlength : document.tokens.length < 2 ^ 63) :
    (termCounts document.tokens).entries.foldlM (insertTerm document.vectorOrdinal)
        { describedLexicalTables before with
          documents := before.map FastDocument.lexicalRow ++ [document.lexicalRow] } =
      .ok (describedLexicalTables (before ++ [document])) := by
  refine (foldlM_insertTerm ?_ ?_ (SortedMap.nodup_keys _) ?_).trans ?_
  · rw [List.map_append, List.mem_append]
    exact .inr (List.mem_singleton_self _)
  · exact fun entry hentry => (le_length_of_mem_termCounts hentry).trans_lt hlength
  · -- the postings so far belong to smaller ordinals
    intro posting hposting hposted
    obtain ⟨earlier, hearlier, hposting⟩ := List.mem_flatMap.mp hposting
    obtain ⟨entry, -, rfl⟩ := List.mem_map.mp hposting
    exact absurd (hposted.trans hordinal) (vectorOrdinal_lt hbefore hearlier).ne
  · simp only [describedLexicalTables, List.map_append, List.flatMap_append, List.foldl_append,
      List.map_singleton, List.flatMap_singleton, FastDocument.postings,
      List.foldl_cons, List.foldl_nil, addDocumentFrequency, FastDocument.tokens, SortedMap.keys]

theorem writeLexicalDocument_eq_ok {before : List FastDocument} {document : FastDocument}
    {scan : LexicalScan} (hbefore : Admitted LexicalStep before) :
    writeLexicalDocument (describedLexicalScan before) (.ok document) = .ok scan ↔
      LexicalStep before document ∧ scan = describedLexicalScan (before ++ [document]) := by
  have hsum : (termCounts (tokenize document.semanticText)).values.sum = document.tokens.length :=
    sum_termCounts _
  have hordinals : (document.vectorOrdinal : ℕ) = before.length →
      (document.vectorOrdinal : ℕ) ∉ (before.map FastDocument.lexicalRow).map
        (·.documentOrdinal) := by
    intro hordinal
    rw [List.map_map, List.mem_map]
    rintro ⟨earlier, hearlier, heq⟩
    exact absurd (heq.trans hordinal) (vectorOrdinal_lt hbefore hearlier).ne
  have hids : (before.map FastDocument.lexicalRow).map (·.documentId) =
      before.map (·.documentId) := List.map_map ..
  have hscan : ∀ tables, tables = describedLexicalTables (before ++ [document]) →
      (⟨tables, before.length + 1,
        (before.map fun document => document.tokens.length).sum + document.tokens.length,
        before.flatMap documentOrderBytes ++ documentOrderBytes document⟩ : LexicalScan) =
      describedLexicalScan (before ++ [document]) := by
    rintro _ rfl
    simp [describedLexicalScan]
  simp only [writeLexicalDocument, ok_bind, bind_eq_ok, exists_unit, throwIf_eq_ok, not_not,
    checkedSum_eq_ok, orThrow_eq_ok, toI64_eq_some, checkedAdd_eq_some, hsum, pure_eq_ok,
    LexicalTables.insertDocument]
  constructor
  · rintro ⟨hordinal, _, ⟨-, rfl⟩, _, ⟨hordinalLt, rfl⟩, _, ⟨hlength, rfl⟩, _, ⟨-, hfresh, rfl⟩,
      tables, hterms, _, ⟨-, rfl⟩, _, ⟨htotal, rfl⟩, rfl⟩
    have hrun := foldlM_insertTerm_document hbefore hordinal hlength
    have htables := Except.ok.inj (hterms.symm.trans hrun)
    have hcount : before.length < 2 ^ 63 := hordinal.symm.trans_lt hordinalLt
    exact ⟨⟨hordinal, hcount, hids ▸ hfresh, hlength, htotal⟩, hscan _ htables⟩
  · rintro ⟨⟨hordinal, hordinalLt, hfresh, hlength, htotal⟩, rfl⟩
    have hrun := foldlM_insertTerm_document hbefore hordinal hlength
    have hcount : before.length + 1 < 2 ^ 64 := by omega
    exact ⟨hordinal, _, ⟨hlength.trans (by decide), rfl⟩, _, ⟨hordinal ▸ hordinalLt, rfl⟩, _,
      ⟨hlength, rfl⟩, _, ⟨hordinals hordinal, hids ▸ hfresh, rfl⟩, _, hrun, _, ⟨hcount, rfl⟩, _,
      ⟨htotal, rfl⟩, hscan _ rfl⟩

/-- What the tables can take. -/
structure LexicallyWritable (documents : List FastDocument) : Prop where
  ordinals : ∀ i document, documents[i]? = some document → (document.vectorOrdinal : ℕ) = i
  ids : (documents.map (·.documentId)).Nodup
  count_le : documents.length ≤ 2 ^ 63
  lengths : ∀ document ∈ documents, document.tokens.length < 2 ^ 63
  total : (documents.map fun document => document.tokens.length).sum < 2 ^ 64

theorem admitted_lexicalStep_iff {documents : List FastDocument} :
    Admitted LexicalStep documents ↔ LexicallyWritable documents := by
  constructor
  · intro h
    refine ⟨admitted_position_iff.mp fun pre x post hsplit => (h pre x post hsplit).ordinal,
      admitted_fresh_iff.mp fun pre x post hsplit => (h pre x post hsplit).fresh, ?_,
      admitted_forall_iff.mp fun pre x post hsplit => (h pre x post hsplit).length_lt,
      (admitted_total_iff (by decide)).mp fun pre x post hsplit => (h pre x post hsplit).total_lt⟩
    exact admitted_length_lt_iff.mp fun pre x post hsplit => (h pre x post hsplit).ordinal_lt
  · intro h before document after hsplit
    exact ⟨admitted_position_iff.mpr h.ordinals before document after hsplit,
      admitted_length_lt_iff.mpr h.count_le before document after hsplit,
      admitted_fresh_iff.mpr h.ids before document after hsplit,
      admitted_forall_iff.mpr h.lengths before document after hsplit,
      (admitted_total_iff (by decide)).mpr h.total before document after hsplit⟩

/-- The loop over the documents. -/
theorem foldlM_writeLexicalDocument_eq_ok {documents : List FastDocument} {scan : LexicalScan} :
    (documents.map .ok).foldlM writeLexicalDocument LexicalScan.empty = .ok scan ↔
      LexicallyWritable documents ∧ scan = describedLexicalScan documents := by
  have hrule : (documents.map .ok).foldlM writeLexicalDocument (describedLexicalScan []) =
      .ok scan ↔ ∃ xs : List FastDocument, (documents.map .ok : List (Result FastDocument)) =
        xs.map .ok ∧ Admitted LexicalStep xs ∧ scan = describedLexicalScan xs :=
    foldlM_stream_eq_ok (fun _ _ => rfl) fun _ _ _ hpre => writeLexicalDocument_eq_ok hpre
  rw [← admitted_lexicalStep_iff]
  refine hrule.trans ⟨?_, fun h => ⟨documents, rfl, h⟩⟩
  rintro ⟨xs, hxs, h⟩
  obtain rfl := List.map_injective_iff.mpr (fun a b => Except.ok.inj) hxs
  exact h

/-- The tables of all the documents, with what is noted about them. -/
def writtenLexicalTables (sha256 : List UInt8 → Pipeline.Digest) (documents : List FastDocument) :
    LexicalTables :=
  { describedLexicalTables documents with metadata := [
    ("schema", sqliteLexicalSchema), ("document_count", toString documents.length),
    ("total_length", toString (documents.map fun document => document.tokens.length).sum),
    ("document_order_sha256", (sha256 (documents.flatMap documentOrderBytes)).val),
    ("tokenizer", "ascii_camel_lower_v1"), ("k1", "1.2"), ("b", "0.75")] }

/-- **The tables.** They are written for documents with consecutive ordinals and
distinct ids whose terms can be counted. -/
theorem writeSqliteLexicalFromDocuments_eq_ok {sha256 : List UInt8 → Pipeline.Digest}
    {documents : List FastDocument} {tables : LexicalTables} :
    writeSqliteLexicalFromDocuments sha256 (documents.map .ok) documents.length
      (sha256 (documents.flatMap documentOrderBytes)).val = .ok tables ↔
      LexicallyWritable documents ∧ tables = writtenLexicalTables sha256 documents := by
  simp only [writeSqliteLexicalFromDocuments, bind_eq_ok, foldlM_writeLexicalDocument_eq_ok,
    exists_unit, throwIf_eq_ok, not_not, pure_eq_ok]
  constructor
  · rintro ⟨_, ⟨h, rfl⟩, -, -, rfl⟩
    exact ⟨h, rfl⟩
  · rintro ⟨h, rfl⟩
    exact ⟨_, ⟨h, rfl⟩, rfl, rfl, rfl⟩

theorem writeSqliteLexicalFromDocuments_ok_iff {sha256 : List UInt8 → Pipeline.Digest}
    {documents : List FastDocument} :
    (∃ tables, writeSqliteLexicalFromDocuments sha256 (documents.map .ok) documents.length
      (sha256 (documents.flatMap documentOrderBytes)).val = .ok tables) ↔
      LexicallyWritable documents := by
  simp only [writeSqliteLexicalFromDocuments_eq_ok]
  exact ⟨fun ⟨_, h, _⟩ => h, fun h => ⟨_, h, rfl⟩⟩

end LivefireRag.Index
