import LivefireRag.Lib.Avoids
import LivefireRag.Index.Assembly

/-!
# Opening an index

What a reader finds in the directory of an index, and the checks it makes before it
uses it (`FastIndex::open`). Opening compares the manifest with the files by their sizes,
digests and row counts; the rows themselves are read by the searches.

`OpenFastIndex.open_avoids_aborted`: opening ends in an answer unless the manifest holds a digest text
that is cut inside a character.
-/

namespace LivefireRag.Index

open Machine Fallible LivefireRag.Embedding

/-! ### The files of a mounted index -/

/-- A row of the occurrence database. SQLite keeps times as signed integers. -/
structure StoredOccurrence where
  occurrenceId : String
  documentId : String
  eventTimeMs : Option ℤ
  relation : String
  snapshotSha256 : String
  mappingSha256 : String
  eventId : String
  supportRef : String
  deriving DecidableEq

structure StoredLookup where
  occurrences : List StoredOccurrence
  metadata : List (String × String)
  deriving DecidableEq

/-- The lexical database with the marks of its header. -/
structure StoredLexical where
  quickCheck : String
  applicationId : ℕ
  userVersion : ℕ
  tables : LexicalTables

/-- The readers of the file formats. -/
structure FileReaders where
  rowCount : List UInt8 → Option ℕ
  documents : List UInt8 → Option (List FastDocument)
  lookup : List UInt8 → Option StoredLookup
  lexicalJson : List UInt8 → Option LexicalJson
  lexicalTables : List UInt8 → Option StoredLexical

/-- The directory of an index: the manifest, where it can be read, and the files inside
the directory by their relative paths. -/
structure IndexDirectory where
  manifest : Option FastIndexManifest
  artifact : String → Option (List UInt8)

/-- Read a file in its format. -/
def readFile {α : Type} (content : Option α) : Result α := orThrow content .io

/-! ### The checks -/

def sqliteLexicalApplicationId : ℕ := 0x4c465233

def PipelineProvenance.digests (provenance : PipelineProvenance) : List String :=
  [provenance.datasetSha256, provenance.preparedCorpusSha256, provenance.embeddingPlanSha256,
    provenance.embeddingResultSetSha256]

def PipelineProvenance.validate (provenance : PipelineProvenance) : Result Unit :=
  forM provenance.digests fun digest => do
    let _ ← decodeSha256 digest
    throwIf (∃ c ∈ digest.toList, c.isUpper) (.invalid "pipeline provenance digest")

/-- The exponent of a 64-bit float is not all ones. -/
def FloatIsFinite (bits : U64) : Prop := (bits : ℕ) / 2 ^ 52 % 2 ^ 11 ≠ 2047

/-- A float above zero. -/
def FloatIsPositive (bits : U64) : Prop := 0 < (bits : ℕ) ∧ (bits : ℕ) < 2 ^ 63

/-- A float from zero to one; `0x3FF0000000000000` is one, and a zero may have a sign. -/
def FloatIsUnit (bits : U64) : Prop := (bits : ℕ) ≤ 0x3FF0000000000000 ∨ (bits : ℕ) = 2 ^ 63

instance : DecidablePred FloatIsFinite := fun bits => by unfold FloatIsFinite; infer_instance
instance : DecidablePred FloatIsPositive := fun bits => by unfold FloatIsPositive; infer_instance
instance : DecidablePred FloatIsUnit := fun bits => by unfold FloatIsUnit; infer_instance

/-- The manifest against itself. -/
def FastIndexManifest.Bound (manifest : FastIndexManifest) : Prop :=
  (manifest.complete ↔ manifest.buildScope = .full) ∧
    manifest.vectors.count = manifest.documents.rows ∧
    manifest.vectors.dimensions = manifest.embeddingProfile.dimensions ∧
    manifest.vectors.dtype = "f32le" ∧ manifest.vectors.headerBytes = vectorHeaderBytes ∧
    manifest.lexical.documentCount = manifest.documents.rows ∧
    manifest.occurrenceLookup.rows = manifest.occurrences.rows ∧
    manifest.occurrenceLookup.schema = occurrenceLookupSchema ∧
    manifest.lexical.tokenizer = "ascii_camel_lower_v1" ∧
    FloatIsFinite manifest.lexical.k1 ∧ FloatIsPositive manifest.lexical.k1 ∧
    FloatIsFinite manifest.lexical.b ∧ FloatIsUnit manifest.lexical.b ∧
    validateEmbeddingProfile manifest.embeddingProfile = .ok ()

instance (manifest : FastIndexManifest) : Decidable manifest.Bound := by
  unfold FastIndexManifest.Bound
  infer_instance

/-- The lexical schema a version of the manifest goes with. -/
def lexicalFormatBound (schemaVersion : String) (schema : Option String) : Bool :=
  schemaVersion = "livefire.rag.fast-index/2" ∧ schema = none ∨
    schemaVersion = "livefire.rag.fast-index/3" ∧ schema = some sqliteLexicalSchema ∨
    schemaVersion = "livefire.rag.fast-index/4" ∧
      (schema = none ∨ schema = some sqliteLexicalSchema)

def FastIndexManifest.validate (prims : Pipeline.Primitives) (manifest : FastIndexManifest)
    (allowTestOnly : Bool) : Result Unit := do
  throwIf (manifest.testOnly ∧ ¬ allowTestOnly)
    (.invalid "test-only index requires explicit diagnostic mode")
  throwIf (manifest.schemaVersion ∉ ["livefire.rag.fast-index/2", "livefire.rag.fast-index/3",
    "livefire.rag.fast-index/4"]) (.invalid "manifest version")
  throwIf ((manifest.schemaVersion = "livefire.rag.fast-index/4") ≠ manifest.testOnly)
    (.invalid "test-only manifest version binding")
  throwIf (¬ manifest.Bound) (.invalid "manifest bindings")
  forM manifest.pipelineProvenance.toList fun provenance => do
    let refused ← isErr provenance.validate
    throwIf refused (.invalid "manifest bindings")
  throwIf (¬ lexicalFormatBound manifest.schemaVersion manifest.lexical.schema)
    (.invalid "lexical format binding")
  throwIf (manifest.componentSha256 ≠ manifestComponentSha256 prims manifest)
    (.corrupt "index component identity")

section Files

variable (prims : Pipeline.Primitives) (readers : FileReaders)

def validateArtifact (content : List UInt8) (bytes : ℕ) (sha256 : String) : Result Unit :=
  throwIf (content.length ≠ bytes ∨ (prims.sha256 content).val ≠ sha256)
    (.corrupt "artifact content digest")

/-- A number in the header. -/
def headerField (header : List UInt8) (start stop : ℕ) : ℕ :=
  Bytes.ofLeBytes ((header.take stop).drop start)

def validateVectorFile (content : List UInt8) (expected : VectorSummary) : Result Unit := do
  throwIf (content.length < 64) .io
  throwIf (content.take 8 ≠ Text.utf8 "LFRAGV1" ++ [0] ∨ headerField content 8 12 ≠ 64 ∨
      headerField content 12 14 ≠ 1 ∨ content[14]? ≠ some 1 ∨ content[15]? ≠ some 0 ∨
      headerField content 28 32 ≠ 0 ∨ headerField content 16 24 ≠ expected.count ∨
      headerField content 24 28 ≠ (expected.dimensions : ℕ)) (.invalid "vector header")
  let order ← decodeSha256 expected.documentOrderSha256
  throwIf ((content.take 64).drop 32 ≠ order) (.invalid "vector header")
  let values ← orThrow (checkedMul 64 expected.count expected.dimensions) (.invalid "vector bytes")
  let bytes ← orThrow (checkedMul 64 values 4) (.invalid "vector bytes")
  let expectedBytes ← orThrow (checkedAdd 64 vectorHeaderBytes bytes) (.invalid "vector bytes")
  throwIf (content.length ≠ expectedBytes) (.invalid "vector file length")

/-- The value under a key of a metadata table. -/
def readMetadata (metadata : List (String × String)) (key : String) : Result String :=
  orThrow ((metadata.find? fun entry => entry.1 = key).map Prod.snd)
    (.sqlite "Query returned no rows")

def validateOccurrenceLookupMetadata (content : List UInt8) (manifest : FastIndexManifest) :
    Result Unit := do
  let lookup ← readFile (readers.lookup content)
  let schema ← readMetadata lookup.metadata "schema"
  throwIf (schema ≠ occurrenceLookupSchema) (.corrupt "occurrence lookup metadata")
  let rows ← readMetadata lookup.metadata "rows"
  throwIf (rows ≠ toString manifest.occurrences.rows) (.corrupt "occurrence lookup metadata")
  let snapshot ← readMetadata lookup.metadata "snapshot_sha256"
  throwIf (snapshot ≠ manifest.source.snapshotSha256) (.corrupt "occurrence lookup metadata")
  let mapping ← readMetadata lookup.metadata "mapping_sha256"
  throwIf (mapping ≠ manifest.source.mappingSha256) (.corrupt "occurrence lookup metadata")
  throwIf (lookup.occurrences.length ≠ manifest.occurrences.rows)
    (.corrupt "occurrence lookup row count")

/-- An unsigned number of 64 bits in decimal digits, with an optional plus sign. -/
def parseU64 (text : String) : Option ℕ :=
  let digits := if text.toList.head? = some '+' then text.toList.tail else text.toList
  if digits = [] ∨ ¬ digits.all Char.isDigit then none
  else (toWidth 64 (digits.foldl (fun n c => 10 * n + (c.toNat - '0'.toNat)) 0)).map Fin.val

/-- A number as it is written is read back. -/
theorem parseU64_toString {n : ℕ} (h : n < 2 ^ 64) : parseU64 (toString n) = some n := by
  have hchars : (toString n).toList = Nat.toDigits 10 n := Nat.toList_repr
  have hdigits : ∀ c ∈ Nat.toDigits 10 n, c.isDigit = true := fun c hc =>
    Nat.isDigit_of_mem_toDigits (by decide) (by decide) hc
  have hplus : (Nat.toDigits 10 n).head? ≠ some '+' := fun hhead =>
    absurd (hdigits '+' (List.mem_of_mem_head? hhead)) (by decide)
  have hvalue : (Nat.toDigits 10 n).foldl (fun n c => 10 * n + (c.toNat - '0'.toNat)) 0 = n :=
    Nat.ofDigitChars_ten_toDigits
  have hgood : ¬ (Nat.toDigits 10 n = [] ∨ ¬ (Nat.toDigits 10 n).all Char.isDigit = true) :=
    not_or.mpr ⟨Nat.toDigits_ne_nil, not_not.mpr (List.all_eq_true.mpr hdigits)⟩
  unfold parseU64
  rw [hchars, if_neg hplus]
  dsimp only
  rw [if_neg hgood, hvalue]
  exact Option.map_eq_some_iff.mpr ⟨⟨n, h⟩, toWidth_eq_some.mpr rfl, rfl⟩

/-- Some row of the lexical tables is outside its bounds. -/
def LexicalTables.OutOfBounds (tables : LexicalTables) (documentCount : ℕ) : Prop :=
  (∃ posting ∈ tables.postings, posting.termFrequency = 0) ∨
    (∃ frequency ∈ tables.termStats.values, frequency = 0 ∨ documentCount < frequency) ∨
    ∃ posting ∈ tables.postings,
      posting.documentOrdinal ∉ tables.documents.map (·.documentOrdinal)

instance (tables : LexicalTables) (documentCount : ℕ) :
    Decidable (tables.OutOfBounds documentCount) := by
  unfold LexicalTables.OutOfBounds
  infer_instance

def validateSqliteLexicalMetadata (content : List UInt8) (expectedDocumentCount : ℕ)
    (expectedDocumentOrderSha256 : String) : Result (ℕ × ℕ) := do
  let stored ← readFile (readers.lexicalTables content)
  throwIf (stored.quickCheck ≠ "ok" ∨ stored.applicationId ≠ sqliteLexicalApplicationId ∨
    stored.userVersion ≠ 1) (.corrupt "lexical SQLite header")
  let read := readMetadata stored.tables.metadata
  let countText ← read "document_count"
  let documentCount ← orThrow (parseU64 countText) (.corrupt "lexical document count")
  let lengthText ← read "total_length"
  let totalLength ← orThrow (parseU64 lengthText) (.corrupt "lexical token count")
  forM [("schema", sqliteLexicalSchema), ("document_order_sha256", expectedDocumentOrderSha256),
      ("tokenizer", "ascii_camel_lower_v1"), ("k1", "1.2"), ("b", "0.75")] fun entry => do
    let value ← read entry.1
    throwIf (value ≠ entry.2) (.corrupt "lexical metadata binding")
  throwIf (documentCount ≠ expectedDocumentCount) (.corrupt "lexical metadata binding")
  let ordinals := stored.tables.documents.map (·.documentOrdinal)
  let expectedMaximum ← orThrow (toI64 (documentCount - 1)) (.corrupt "lexical document ordinal")
  throwIf (ordinals.length ≠ documentCount ∨ ordinals.min? ≠ some 0 ∨
    ordinals.max? ≠ some expectedMaximum) (.corrupt "lexical row binding")
  let bound ← orThrow (toI64 documentCount) (.corrupt "lexical document count")
  throwIf (stored.tables.OutOfBounds bound) (.corrupt "lexical row binding")
  return (documentCount, totalLength)

/-! ### Opening -/

inductive LexicalBackend where
  | jsonV2
  | sqliteV3 (documentCount totalLength : ℕ)
  deriving DecidableEq

/-- An index that has been opened. Its files are not written to, so what they held when
it was opened is what every search reads. -/
structure OpenFastIndex where
  manifest : FastIndexManifest
  documents : List UInt8
  occurrenceLookup : List UInt8
  vectors : List UInt8
  lexicalFile : List UInt8
  lexical : LexicalBackend
  deriving DecidableEq

def openLexical (content : List UInt8) (manifest : FastIndexManifest) : Result LexicalBackend :=
  match manifest.lexical.schema with
  | none => return .jsonV2
  | some _ => do
    let counts ← validateSqliteLexicalMetadata readers content manifest.documents.rows
      manifest.vectors.documentOrderSha256
    return .sqliteV3 counts.1 counts.2

def openInternal (directory : IndexDirectory) (allowTestOnly : Bool) : Result OpenFastIndex := do
  let manifest ← readFile directory.manifest
  manifest.validate prims allowTestOnly
  let documents ← readFile (directory.artifact manifest.documents.path)
  let occurrences ← readFile (directory.artifact manifest.occurrences.path)
  let documentRows ← readFile (readers.rowCount documents)
  throwIf (documentRows ≠ manifest.documents.rows) (.invalid "manifest row binding")
  let occurrenceRows ← readFile (readers.rowCount occurrences)
  throwIf (occurrenceRows ≠ manifest.occurrences.rows) (.invalid "manifest row binding")
  validateArtifact prims documents manifest.documents.bytes manifest.documents.sha256
  validateArtifact prims occurrences manifest.occurrences.bytes manifest.occurrences.sha256
  let vectors ← readFile (directory.artifact manifest.vectors.path)
  validateVectorFile vectors manifest.vectors
  let lexicalFile ← readFile (directory.artifact manifest.lexical.path)
  validateArtifact prims vectors manifest.vectors.bytes manifest.vectors.sha256
  validateArtifact prims lexicalFile manifest.lexical.bytes manifest.lexical.sha256
  let lookup ← readFile (directory.artifact manifest.occurrenceLookup.path)
  validateArtifact prims lookup manifest.occurrenceLookup.bytes manifest.occurrenceLookup.sha256
  validateOccurrenceLookupMetadata readers lookup manifest
  let lexical ← openLexical readers lexicalFile manifest
  return ⟨manifest, documents, lookup, vectors, lexicalFile, lexical⟩

/-- Fast open validates metadata and the pairing of vectors and documents. -/
def OpenFastIndex.open (directory : IndexDirectory) : Result OpenFastIndex :=
  openInternal prims readers directory false

/-! ### Opening ends in an answer -/

/-- The digests that are decoded. -/
def FastIndexManifest.decodedDigests (manifest : FastIndexManifest) : List String :=
  manifest.vectors.documentOrderSha256 ::
    manifest.pipelineProvenance.toList.flatMap PipelineProvenance.digests

/-- No digest is cut inside a character. -/
def FastIndexManifest.Decodes (manifest : FastIndexManifest) : Prop :=
  ∀ digest ∈ manifest.decodedDigests, decodeSha256 digest ≠ .error .aborted

instance (manifest : FastIndexManifest) : Decidable manifest.Decodes := by
  unfold FastIndexManifest.Decodes
  infer_instance

theorem avoids_readFile {α : Type} (content : Option α) : Avoids .aborted (readFile content) :=
  avoids_orThrow (by decide)

theorem avoids_readMetadata (metadata : List (String × String)) (key : String) :
    Avoids .aborted (readMetadata metadata key) :=
  avoids_orThrow nofun

theorem avoids_isErr {α : Type} {x : Result α} (h : Avoids .aborted x) :
    Avoids .aborted (isErr x) := by
  cases x with
  | ok a => exact avoids_ok _
  | error e =>
    cases e with
    | aborted => exact absurd rfl h
    | _ => exact avoids_ok _

theorem FastIndexManifest.validate_avoids_aborted {manifest : FastIndexManifest}
    (h : manifest.Decodes) (allowTestOnly : Bool) :
    Avoids .aborted (manifest.validate prims allowTestOnly) := by
  have hprovenance : ∀ provenance ∈ manifest.pipelineProvenance.toList,
      Avoids .aborted provenance.validate := by
    intro provenance hmem
    refine avoids_forM fun digest hdigest => avoids_bind ?_ fun _ _ => avoids_throwIf (by decide)
    exact h digest (List.mem_cons_of_mem _ (List.mem_flatMap.mpr ⟨provenance, hmem, hdigest⟩))
  unfold FastIndexManifest.validate
  iterate 4 refine avoids_bind (avoids_throwIf (by decide)) fun _ _ => ?_
  refine avoids_bind (avoids_forM fun provenance hmem => ?_) fun _ _ => ?_
  · exact avoids_bind (avoids_isErr (hprovenance provenance hmem)) fun _ _ =>
      avoids_throwIf (by decide)
  · refine avoids_bind (avoids_throwIf (by decide)) fun _ _ => ?_
    exact avoids_throwIf (by decide)

theorem validateVectorFile_avoids_aborted (content : List UInt8) {expected : VectorSummary}
    (h : Avoids .aborted (decodeSha256 expected.documentOrderSha256)) :
    Avoids .aborted (validateVectorFile content expected) := by
  unfold validateVectorFile
  iterate 2 refine avoids_bind (avoids_throwIf (by decide)) fun _ _ => ?_
  refine avoids_bind h fun order _ => ?_
  refine avoids_bind (avoids_throwIf (by decide)) fun _ _ => ?_
  iterate 3 refine avoids_bind (avoids_orThrow (by decide)) fun _ _ => ?_
  exact avoids_throwIf (by decide)

theorem validateOccurrenceLookupMetadata_avoids_aborted (content : List UInt8)
    (manifest : FastIndexManifest) :
    Avoids .aborted (validateOccurrenceLookupMetadata readers content manifest) := by
  unfold validateOccurrenceLookupMetadata
  refine avoids_bind (avoids_readFile _) fun lookup _ => ?_
  iterate 4
    refine avoids_bind (avoids_readMetadata _ _) fun _ _ => ?_
    refine avoids_bind (avoids_throwIf (by decide)) fun _ _ => ?_
  exact avoids_throwIf (by decide)

theorem validateSqliteLexicalMetadata_avoids_aborted (content : List UInt8)
    (expectedDocumentCount : ℕ) (expectedDocumentOrderSha256 : String) :
    Avoids .aborted (validateSqliteLexicalMetadata readers content expectedDocumentCount
      expectedDocumentOrderSha256) := by
  unfold validateSqliteLexicalMetadata
  refine avoids_bind (avoids_readFile _) fun stored _ => ?_
  refine avoids_bind (avoids_throwIf (by decide)) fun _ _ => ?_
  iterate 2
    refine avoids_bind (avoids_readMetadata _ _) fun _ _ => ?_
    refine avoids_bind (avoids_orThrow (by decide)) fun _ _ => ?_
  refine avoids_bind (avoids_forM fun entry _ => ?_) fun _ _ => ?_
  · exact avoids_bind (avoids_readMetadata _ _) fun _ _ => avoids_throwIf (by decide)
  · refine avoids_bind (avoids_throwIf (by decide)) fun _ _ => ?_
    refine avoids_bind (avoids_orThrow (by decide)) fun _ _ => ?_
    refine avoids_bind (avoids_throwIf (by decide)) fun _ _ => ?_
    refine avoids_bind (avoids_orThrow (by decide)) fun _ _ => ?_
    exact avoids_bind (avoids_throwIf (by decide)) fun _ _ => avoids_pure _

theorem openLexical_avoids_aborted (content : List UInt8) (manifest : FastIndexManifest) :
    Avoids .aborted (openLexical readers content manifest) := by
  unfold openLexical
  split
  · exact avoids_pure _
  · exact avoids_bind (validateSqliteLexicalMetadata_avoids_aborted readers _ _ _) fun _ _ =>
      avoids_pure _

/-- **Opening ends in an answer** when the digests of the manifest can be decoded. -/
theorem OpenFastIndex.open_avoids_aborted {directory : IndexDirectory}
    (h : ∀ manifest ∈ directory.manifest, manifest.Decodes) :
    Avoids .aborted (OpenFastIndex.open prims readers directory) := by
  unfold OpenFastIndex.open openInternal
  refine avoids_bind (avoids_readFile _) fun manifest hmanifest => ?_
  have hdecodes : manifest.Decodes := h manifest (orThrow_eq_ok.mp hmanifest)
  refine avoids_bind (FastIndexManifest.validate_avoids_aborted prims hdecodes _) fun _ _ => ?_
  iterate 2 refine avoids_bind (avoids_readFile _) fun _ _ => ?_
  iterate 2
    refine avoids_bind (avoids_readFile _) fun _ _ => ?_
    refine avoids_bind (avoids_throwIf (by decide)) fun _ _ => ?_
  -- the sizes and digests of the two row files, and the vectors
  iterate 2 refine avoids_bind (avoids_throwIf (by decide)) fun _ _ => ?_
  refine avoids_bind (avoids_readFile _) fun vectors _ => ?_
  refine avoids_bind (validateVectorFile_avoids_aborted _ (hdecodes _ (List.mem_cons_self ..)))
    fun _ _ => ?_
  refine avoids_bind (avoids_readFile _) fun lexicalFile _ => ?_
  iterate 2 refine avoids_bind (avoids_throwIf (by decide)) fun _ _ => ?_
  -- the two databases
  refine avoids_bind (avoids_readFile _) fun lookup _ => ?_
  refine avoids_bind (avoids_throwIf (by decide)) fun _ _ => ?_
  refine avoids_bind (validateOccurrenceLookupMetadata_avoids_aborted readers _ _) fun _ _ => ?_
  exact avoids_bind (openLexical_avoids_aborted readers _ _) fun _ _ => avoids_pure _

end Files

end LivefireRag.Index
