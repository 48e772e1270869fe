import LivefireRag.Index.LexicalAgreement
import LivefireRag.Index.VectorShards

/-!
# Published indexes are opened

The writers that publish an index (`Publishes`) and what an index holds that they
published: the rows of its three streams, a vector file with the vectors laid end to end
after its header, and a manifest that describes the files (`Publishes.describes`). Where the
row files and the databases are read back as they were stored (`ReadsBack`), the index is
opened (`open_published`), and the bytes at the place of an ordinal are the vector that was
given for it (`readVectorRow_published`).
-/

namespace LivefireRag.Index

open Machine Fallible Tables Chunks Bytes LivefireRag.Embedding

/-! ### The writers -/

structure PipelineIndexOptions where
  source : SourceBinding
  buildScope : BuildScope
  embeddingProfile : EmbeddingProfile
  provenance : PipelineProvenance
  testOnly : Bool

/-- The options that a writer assembles the index with. -/
def PipelineIndexOptions.assembly (options : PipelineIndexOptions) (format : LexicalFormat) :
    IndexAssemblyOptions :=
  ⟨options.source, options.buildScope, options.embeddingProfile, format, some options.provenance,
    options.testOnly⟩

section Writers

variable (prims : Pipeline.Primitives) (storage : Storage) (unitNorm : List F32 → Bool)
  (directory : OutputDirectory) (outputName : Option String)

def writeFastIndexFromStreams (source : SourceBinding) (buildScope : BuildScope)
    (documents : List (Result FastDocument)) (occurrences : List (Result FastOccurrence))
    (vectors : List (Result OrderedVector)) (embeddingProfile : EmbeddingProfile) :
    Result FastIndexManifest × OutputDirectory :=
  writeFastIndexFromStreamsWithFormat prims storage unitNorm directory outputName documents
    occurrences vectors ⟨source, buildScope, embeddingProfile, .jsonV2, none, false⟩

def writeScalableFastIndexFromStreams (source : SourceBinding) (buildScope : BuildScope)
    (documents : List (Result FastDocument)) (occurrences : List (Result FastOccurrence))
    (vectors : List (Result OrderedVector)) (embeddingProfile : EmbeddingProfile) :
    Result FastIndexManifest × OutputDirectory :=
  writeFastIndexFromStreamsWithFormat prims storage unitNorm directory outputName documents
    occurrences vectors ⟨source, buildScope, embeddingProfile, .sqliteV3, none, false⟩

/-- The provenance is checked before anything is written. -/
def writeWithProvenance (format : LexicalFormat) (documents : List (Result FastDocument))
    (occurrences : List (Result FastOccurrence)) (vectors : List (Result OrderedVector))
    (options : PipelineIndexOptions) : Result FastIndexManifest × OutputDirectory :=
  match options.provenance.validate with
  | .error e => (.error e, directory)
  | .ok _ => writeFastIndexFromStreamsWithFormat prims storage unitNorm directory outputName
      documents occurrences vectors (options.assembly format)

def writeBoundFastIndexFromStreams (documents : List (Result FastDocument))
    (occurrences : List (Result FastOccurrence)) (vectors : List (Result OrderedVector))
    (options : PipelineIndexOptions) : Result FastIndexManifest × OutputDirectory :=
  writeWithProvenance prims storage unitNorm directory outputName .jsonV2 documents occurrences
    vectors options

def writeBoundScalableFastIndexFromStreams (documents : List (Result FastDocument))
    (occurrences : List (Result FastOccurrence)) (vectors : List (Result OrderedVector))
    (options : PipelineIndexOptions) : Result FastIndexManifest × OutputDirectory :=
  writeWithProvenance prims storage unitNorm directory outputName .sqliteV3 documents occurrences
    vectors options

/-- One of the writers publishes the index from rows, not for tests only. -/
inductive Publishes (documents : List FastDocument) (occurrences : List FastOccurrence)
    (vectors : List OrderedVector) (index : FastIndex) : Prop where
  | jsonV2 (source : SourceBinding) (buildScope : BuildScope) (profile : EmbeddingProfile) :
      writeFastIndexFromStreams prims storage unitNorm directory outputName source buildScope
        (documents.map .ok) (occurrences.map .ok) (vectors.map .ok) profile =
          (.ok index.manifest, ⟨some index, false⟩) →
      Publishes documents occurrences vectors index
  | sqliteV3 (source : SourceBinding) (buildScope : BuildScope) (profile : EmbeddingProfile) :
      writeScalableFastIndexFromStreams prims storage unitNorm directory outputName source
        buildScope (documents.map .ok) (occurrences.map .ok) (vectors.map .ok) profile =
          (.ok index.manifest, ⟨some index, false⟩) →
      Publishes documents occurrences vectors index
  | boundJsonV2 (options : PipelineIndexOptions) : options.testOnly = false →
      writeBoundFastIndexFromStreams prims storage unitNorm directory outputName
        (documents.map .ok) (occurrences.map .ok) (vectors.map .ok) options =
          (.ok index.manifest, ⟨some index, false⟩) →
      Publishes documents occurrences vectors index
  | boundSqliteV3 (options : PipelineIndexOptions) : options.testOnly = false →
      writeBoundScalableFastIndexFromStreams prims storage unitNorm directory outputName
        (documents.map .ok) (occurrences.map .ok) (vectors.map .ok) options =
          (.ok index.manifest, ⟨some index, false⟩) →
      Publishes documents occurrences vectors index

end Writers

/-! ### The vector file -/

/-- The start of the vector file, up to the count. -/
def vectorMarks : List UInt8 :=
  Text.utf8 "LFRAGV1" ++ [0] ++ toLeBytes 4 vectorHeaderBytes ++ toLeBytes 2 1 ++ [1, 0]

/-- The header of a count, and the vectors laid end to end. -/
def vectorFile (count : ℕ) (dimensions : U32) (order : List UInt8) (rows : List (List F32)) :
    List UInt8 :=
  vectorHeader count dimensions order ++ rows.flatMap vectorBytes

theorem vectorFile_eq (count : ℕ) (dimensions : U32) (order : List UInt8)
    (rows : List (List F32)) : vectorFile count dimensions order rows =
      vectorMarks ++ (toLeBytes 8 count ++ (toLeBytes 4 dimensions ++ (toLeBytes 4 0 ++
        (order ++ rows.flatMap vectorBytes)))) := by
  simp only [vectorFile, vectorHeader, vectorMarks, List.append_assoc]

theorem length_vectorMarks : vectorMarks.length = 16 := by decide +kernel

/-- Writing the count over the zero that stands for it. -/
theorem patch_vectorFile (count : ℕ) (dimensions : U32) (order : List UInt8)
    (rows : List (List F32)) :
    (vectorFile 0 dimensions order rows).take 16 ++ toLeBytes 8 count ++
        (vectorFile 0 dimensions order rows).drop 24 =
      vectorFile count dimensions order rows := by
  have hmarks := length_vectorMarks
  have hcount : (vectorMarks ++ toLeBytes 8 0).length = 24 := by
    rw [List.length_append, hmarks, length_toLeBytes]
  rw [vectorFile_eq, List.take_left' hmarks, ← List.append_assoc vectorMarks (toLeBytes 8 0),
    List.drop_left' hcount, vectorFile_eq, List.append_assoc]

section Vectors

variable {unitNorm : List F32 → Bool} {dimensions : U32} {normalization : String}

/-- What the writer of the vectors leaves. -/
theorem writeVectorsStreaming_eq_ok {vectors : List OrderedVector} {digest : Pipeline.Digest}
    {written : List UInt8 × ℕ} :
    writeVectorsStreaming unitNorm (vectors.map .ok) dimensions digest.val normalization =
        .ok written ↔
      VectorsAccepted unitNorm dimensions normalization vectors ∧
        written = (vectorFile vectors.length dimensions (orderBytes digest)
          (vectors.map (·.values)), vectors.length) := by
  have hscan : ∀ scan, (vectors.map .ok).foldlM (writeVector unitNorm dimensions normalization)
      ⟨vectorHeader 0 dimensions (orderBytes digest), 0⟩ = .ok scan ↔
      VectorsAccepted unitNorm dimensions normalization vectors ∧
        scan = describedVectorScan (vectorHeader 0 dimensions (orderBytes digest)) vectors := by
    intro scan
    have hstart : describedVectorScan (vectorHeader 0 dimensions (orderBytes digest)) [] =
        ⟨vectorHeader 0 dimensions (orderBytes digest), 0⟩ := by
      simp [describedVectorScan]
    have hrule : (vectors.map .ok).foldlM (writeVector unitNorm dimensions normalization)
        (describedVectorScan (vectorHeader 0 dimensions (orderBytes digest)) []) = .ok scan ↔
        ∃ xs : List OrderedVector, (vectors.map .ok : List (Result OrderedVector)) = xs.map .ok ∧
          Admitted (VectorStep unitNorm dimensions normalization) xs ∧
          scan = describedVectorScan (vectorHeader 0 dimensions (orderBytes digest)) xs :=
      foldlM_stream_eq_ok (fun _ _ => rfl) fun _ _ _ _ => writeVector_eq_ok
    rw [hstart] at hrule
    rw [hrule, ← admitted_vectorStep_iff]
    constructor
    · rintro ⟨xs, hxs, h⟩
      obtain rfl := List.map_injective_iff.mpr (fun a b => Except.ok.inj) hxs
      exact h
    · exact fun h => ⟨vectors, rfl, h⟩
  have hpatched : (describedVectorScan (vectorHeader 0 dimensions (orderBytes digest))
      vectors).bytes = vectorFile 0 dimensions (orderBytes digest) (vectors.map (·.values)) := by
    rw [describedVectorScan, vectorFile, List.flatMap_map]
    rfl
  simp only [writeVectorsStreaming, decodeSha256_digest, ok_bind, bind_eq_ok, hscan, pure_eq_ok]
  constructor
  · rintro ⟨_, ⟨h, rfl⟩, rfl⟩
    rw [hpatched, patch_vectorFile]
    exact ⟨h, rfl⟩
  · rintro ⟨h, rfl⟩
    refine ⟨_, ⟨h, rfl⟩, ?_⟩
    rw [hpatched, patch_vectorFile]
    rfl

end Vectors

/-! ### What a published index holds -/

section Publish

variable (prims : Pipeline.Primitives) (storage : Storage) (unitNorm : List F32 → Bool)
  (options : IndexAssemblyOptions) (documents : List FastDocument)
  (occurrences : List FastOccurrence) (vectors : List OrderedVector)

/-- The digest of the order of the documents. -/
def orderDigest : Pipeline.Digest := prims.sha256 (documents.flatMap documentOrderBytes)

def publishedLookup : OccurrenceLookup where
  assemblyDocuments := []
  occurrences := occurrences.map FastOccurrence.lookupRow
  metadata := [("schema", occurrenceLookupSchema), ("rows", toString occurrences.length),
    ("snapshot_sha256", options.source.snapshotSha256),
    ("mapping_sha256", options.source.mappingSha256)]

def publishedVectors : List UInt8 :=
  vectorFile vectors.length options.embeddingProfile.dimensions
    (orderBytes (orderDigest prims documents)) (vectors.map (·.values))

def publishedLexical : LexicalFormat → LexicalFile
  | .jsonV2 => .json ⟨documents.length, averageOf documents, collectedFrequency documents,
      documents.map describedLexicalDocument⟩
  | .sqliteV3 => .sqlite (writtenLexicalTables prims.sha256 documents)

/-- The index of the rows. -/
def publishedIndex : FastIndex :=
  describeIndex prims storage options
    (describedSummary prims.sha256 (decide (options.lexicalFormat = .jsonV2)) documents)
    (RowWriter.ofRows occurrences).close occurrences.length (publishedLookup options occurrences)
    (publishedVectors prims options documents vectors) vectors.length
    (publishedLexical prims documents options.lexicalFormat)

/-- What the writers asked of the rows and of the options. -/
structure Publishable : Prop where
  production : options.testOnly = false
  provenance : ∀ provenance ∈ options.pipelineProvenance, provenance.validate = .ok ()
  profile : validateEmbeddingProfile options.embeddingProfile = .ok ()
  documents_accepted : DocumentsAccepted (decide (options.lexicalFormat = .jsonV2)) documents
  rows : ∀ row ∈ occurrences, OccurrenceAccepted options.source row
  occurrences_lt : occurrences.length < 2 ^ 64
  closed : OccurrencesClosed documents occurrences
  vectors_accepted : VectorsAccepted unitNorm options.embeddingProfile.dimensions
    options.embeddingProfile.normalization vectors
  vector_count : vectors.length = documents.length
  writable : options.lexicalFormat = .sqliteV3 → LexicallyWritable documents

end Publish

section Describe

variable {prims : Pipeline.Primitives} {storage : Storage} {unitNorm : List F32 → Bool}
  {options : IndexAssemblyOptions} {documents : List FastDocument}
  {occurrences : List FastOccurrence} {vectors : List OrderedVector} {index : FastIndex}

theorem writeLexical_published {file : LexicalFile}
    (h : writeLexical prims options.lexicalFormat (describedSummary prims.sha256
      (decide (options.lexicalFormat = .jsonV2)) documents) = .ok file) :
    (options.lexicalFormat = .sqliteV3 → LexicallyWritable documents) ∧
      file = publishedLexical prims documents options.lexicalFormat := by
  cases hformat : options.lexicalFormat with
  | jsonV2 =>
    rw [hformat] at h
    exact ⟨nofun, writeLexical_jsonV2.mp h⟩
  | sqliteV3 =>
    rw [hformat] at h
    obtain ⟨hwritable, hfile⟩ := writeLexical_sqliteV3.mp h
    exact ⟨fun _ => hwritable, hfile⟩

/-- What is assembled from rows is the index of the rows. -/
theorem assembleFastIndex_published (hproduction : options.testOnly = false)
    (hprovenance : ∀ provenance ∈ options.pipelineProvenance, provenance.validate = .ok ())
    (hprofile : validateEmbeddingProfile options.embeddingProfile = .ok ())
    (h : assembleFastIndex prims storage unitNorm (documents.map .ok) (occurrences.map .ok)
      (vectors.map .ok) options = .ok index) :
    Publishable unitNorm options documents occurrences vectors ∧
      index = publishedIndex prims storage options documents occurrences vectors := by
  have hinjective : ∀ {α : Type}, Function.Injective (List.map (Except.ok : α → Result α)) :=
    fun {α} => List.map_injective_iff.mpr fun a b => Except.ok.inj
  obtain ⟨⟨summary, lookup⟩, hdocuments, h⟩ := bind_eq_ok.mp h
  obtain ⟨⟨batches, total, lookup'⟩, hoccurrences, h⟩ := bind_eq_ok.mp h
  obtain ⟨finalized, hfinalize, h⟩ := bind_eq_ok.mp h
  obtain ⟨⟨bytes, count⟩, hvectors, h⟩ := bind_eq_ok.mp h
  obtain ⟨_, hcount, h⟩ := bind_eq_ok.mp h
  obtain ⟨file, hlexical, h⟩ := bind_eq_ok.mp h
  obtain rfl := pure_eq_ok.mp h
  obtain ⟨documents', hstream, haccepted, hwritten⟩ := writeDocumentsStreaming_eq_ok.mp hdocuments
  obtain rfl := hinjective hstream
  obtain ⟨rfl, rfl⟩ := Prod.mk.inj hwritten
  obtain ⟨occurrences', hstream, hrows, hlength, hwritten⟩ :=
    writeOccurrencesStreaming_eq_ok.mp hoccurrences
  obtain rfl := hinjective hstream
  obtain ⟨rfl, hrest⟩ := Prod.mk.inj hwritten
  obtain ⟨rfl, rfl⟩ := Prod.mk.inj hrest
  obtain ⟨hclosed, rfl⟩ := finalizeOccurrenceLookup_eq_ok.mp hfinalize
  obtain ⟨hvectorsAccepted, hwritten⟩ := writeVectorsStreaming_eq_ok.mp hvectors
  obtain ⟨rfl, rfl⟩ := Prod.mk.inj hwritten
  obtain ⟨hwritable, rfl⟩ := writeLexical_published hlexical
  exact ⟨⟨hproduction, hprovenance, hprofile, haccepted, hrows, hlength, hclosed,
    hvectorsAccepted, not_not.mp (throwIf_eq_ok.mp hcount), hwritable⟩, rfl⟩

/-- A call that publishes an index has assembled it. -/
theorem assembled_of_written {directory : OutputDirectory} {outputName : Option String}
    (h : writeFastIndexFromStreamsWithFormat prims storage unitNorm directory outputName
      (documents.map .ok) (occurrences.map .ok) (vectors.map .ok) options =
        (.ok index.manifest, ⟨some index, false⟩)) :
    validateEmbeddingProfile options.embeddingProfile = .ok () ∧
      assembleFastIndex prims storage unitNorm (documents.map .ok) (occurrences.map .ok)
        (vectors.map .ok) options = .ok index := by
  by_cases hready : Ready directory outputName options
  · have hidentity := hready.identity
    simp only [validateAssemblyIdentity, bind_eq_ok, exists_unit, throwIf_eq_ok, not_not]
      at hidentity
    obtain ⟨_, -, -, _, -, -, hprofile⟩ := hidentity
    refine ⟨hprofile, ?_⟩
    rw [writeFastIndex_of_ready hready] at h
    split at h
    · next written hassembled =>
      obtain ⟨-, houtput⟩ := Prod.mk.inj h
      obtain rfl := Option.some.inj (OutputDirectory.mk.inj houtput).1
      exact hassembled
    · cases (Prod.mk.inj h).1
  · obtain ⟨e, hrun⟩ := @writeFastIndex_of_not_ready prims storage unitNorm (documents.map .ok)
      (occurrences.map .ok) (vectors.map .ok) options directory outputName hready
    rw [hrun] at h
    cases (Prod.mk.inj h).1

/-- **What a published index is**: the index of rows that the writers take. -/
theorem Publishes.describes {directory : OutputDirectory} {outputName : Option String}
    (h : Publishes prims storage unitNorm directory outputName documents occurrences vectors
      index) :
    ∃ options, Publishable unitNorm options documents occurrences vectors ∧
      index = publishedIndex prims storage options documents occurrences vectors := by
  -- the provenance is absent, or has been checked
  have hbound : ∀ {format : LexicalFormat} {options : PipelineIndexOptions},
      options.testOnly = false → writeWithProvenance prims storage unitNorm directory outputName
        format (documents.map .ok) (occurrences.map .ok) (vectors.map .ok) options =
          (.ok index.manifest, ⟨some index, false⟩) →
      ∃ options, Publishable unitNorm options documents occurrences vectors ∧
        index = publishedIndex prims storage options documents occurrences vectors := by
    intro format options htest hrun
    unfold writeWithProvenance at hrun
    split at hrun
    · cases (Prod.mk.inj hrun).1
    · next hprovenance =>
      obtain ⟨hprofile, hassembled⟩ := assembled_of_written hrun
      refine ⟨_, assembleFastIndex_published htest ?_ hprofile hassembled⟩
      rintro _ ⟨⟩
      exact hprovenance
  cases h with
  | jsonV2 source buildScope profile hrun =>
    obtain ⟨hprofile, hassembled⟩ := assembled_of_written hrun
    exact ⟨_, assembleFastIndex_published rfl (fun _ h => by cases h) hprofile hassembled⟩
  | sqliteV3 source buildScope profile hrun =>
    obtain ⟨hprofile, hassembled⟩ := assembled_of_written hrun
    exact ⟨_, assembleFastIndex_published rfl (fun _ h => by cases h) hprofile hassembled⟩
  | boundJsonV2 options htest hrun => exact hbound htest hrun
  | boundSqliteV3 options htest hrun => exact hbound htest hrun

end Describe

/-! ### Reading the files back -/

/-- A row as it is stored. -/
def OccurrenceRow.stored (row : OccurrenceRow) : StoredOccurrence where
  occurrenceId := row.occurrenceId
  documentId := row.documentId
  eventTimeMs := row.eventTimeMs.map fun time => (time : ℤ)
  relation := row.relation
  snapshotSha256 := row.snapshotSha256
  mappingSha256 := row.mappingSha256
  eventId := row.eventId
  supportRef := row.supportRef

def OccurrenceLookup.stored (lookup : OccurrenceLookup) : StoredLookup :=
  ⟨lookup.occurrences.map OccurrenceRow.stored, lookup.metadata⟩

/-- The marks that the writer puts in the header of the lexical database. -/
def LexicalTables.stored (tables : LexicalTables) : StoredLexical :=
  ⟨"ok", sqliteLexicalApplicationId, 1, tables⟩

/-- The row files and the databases of an index are read back as they were stored, and
the length of its vector file is a number of 64 bits. -/
structure ReadsBack (storage : Storage) (readers : FileReaders) (index : FastIndex) : Prop where
  document_rows : readers.rowCount (storage.documents index.documents) =
    some index.documents.flatten.length
  occurrence_rows : readers.rowCount (storage.occurrences index.occurrences) =
    some index.occurrences.flatten.length
  documents : readers.documents (storage.documents index.documents) = some index.documents.flatten
  lookup : readers.lookup (storage.lookup index.occurrenceLookup) =
    some index.occurrenceLookup.stored
  lexicalJson : ∀ content, index.lexical = .json content →
    readers.lexicalJson (storage.lexical index.lexical) = some content
  lexicalTables : ∀ tables, index.lexical = .sqlite tables →
    readers.lexicalTables (storage.lexical index.lexical) = some tables.stored
  vectors_lt : index.vectors.length < 2 ^ 64

/-- The directory of an index. -/
def FastIndex.directory (storage : Storage) (index : FastIndex) : IndexDirectory where
  manifest := some index.manifest
  artifact := fun path =>
    if path = index.manifest.documents.path then some (storage.documents index.documents)
    else if path = index.manifest.occurrences.path then
      some (storage.occurrences index.occurrences)
    else if path = index.manifest.vectors.path then some index.vectors
    else if path = index.manifest.lexical.path then some (storage.lexical index.lexical)
    else if path = index.manifest.occurrenceLookup.path then
      some (storage.lookup index.occurrenceLookup)
    else none

/-- The counts that the lexical database notes. -/
def lexicalBackend (documents : List FastDocument) : LexicalFormat → LexicalBackend
  | .jsonV2 => .jsonV2
  | .sqliteV3 => .sqliteV3 documents.length
      (documents.map fun document => document.tokens.length).sum

/-- The index as it is opened. -/
def FastIndex.opened (storage : Storage) (index : FastIndex) (backend : LexicalBackend) :
    OpenFastIndex where
  manifest := index.manifest
  documents := storage.documents index.documents
  occurrenceLookup := storage.lookup index.occurrenceLookup
  vectors := index.vectors
  lexicalFile := storage.lexical index.lexical
  lexical := backend

/-! ### Opening -/

section Open

variable {prims : Pipeline.Primitives} {storage : Storage} {readers : FileReaders}
  {unitNorm : List F32 → Bool} {options : IndexAssemblyOptions} {documents : List FastDocument}
  {occurrences : List FastOccurrence} {vectors : List OrderedVector}

/-- The manifest that the writers make passes its own checks. -/
theorem validate_published (h : Publishable unitNorm options documents occurrences vectors) :
    (publishedIndex prims storage options documents occurrences vectors).manifest.validate prims
      false = .ok () := by
  have hproduction := h.production
  have hbound : (publishedIndex prims storage options documents occurrences
      vectors).manifest.Bound := by
    exact ⟨decide_eq_true_iff, h.vector_count, rfl, rfl, rfl, rfl, rfl, rfl, rfl,
      show FloatIsFinite 0x3FF3333333333333 by decide,
      show FloatIsPositive 0x3FF3333333333333 by decide,
      show FloatIsFinite 0x3FE8000000000000 by decide,
      show FloatIsUnit 0x3FE8000000000000 by decide, h.profile⟩
  have hformat : lexicalFormatBound (publishedIndex prims storage options documents occurrences
      vectors).manifest.schemaVersion (publishedIndex prims storage options documents occurrences
      vectors).manifest.lexical.schema = true := by
    show lexicalFormatBound (if options.testOnly then _ else _) _ = true
    rw [if_neg (by rw [hproduction]; exact Bool.false_ne_true)]
    cases hformat : options.lexicalFormat <;> simp [publishedIndex, describeIndex, hformat,
      lexicalFormatBound]
  have hversion : (publishedIndex prims storage options documents occurrences
      vectors).manifest.schemaVersion =
      if options.lexicalFormat = .sqliteV3 then "livefire.rag.fast-index/3"
      else "livefire.rag.fast-index/2" := by
    show (if options.testOnly then _ else _) = _
    rw [if_neg (by rw [hproduction]; exact Bool.false_ne_true)]
    simp only [decide_eq_true_iff]
  have htest : (publishedIndex prims storage options documents occurrences
      vectors).manifest.testOnly = false := hproduction
  simp only [FastIndexManifest.validate, bind_eq_ok, exists_unit, throwIf_eq_ok, not_not]
  refine ⟨?_, ?_, ?_, hbound, ?_, hformat, rfl⟩
  · rw [htest]
    exact fun hand => Bool.false_ne_true hand.1
  · rw [hversion]
    split <;> decide
  · rw [hversion, htest]
    split <;> simp
  · refine forM_eq_ok.mpr fun provenance hprovenance => ?_
    have hvalid := h.provenance provenance (Option.mem_toList.mp hprovenance)
    rw [hvalid]
    rfl

/-- A field of the vector file. -/
theorem headerField_eq {content : List UInt8} {a b : ℕ} :
    headerField content a b = Bytes.ofLeBytes (Tiling.segment content a b) := by
  rw [headerField, List.drop_take, Tiling.segment]

/-- The vectors take the same number of bytes. -/
theorem Publishable.length_row (h : Publishable unitNorm options documents occurrences vectors) :
    ∀ row ∈ (vectors.map (·.values)).map vectorBytes,
      row.length = options.embeddingProfile.dimensions * 4 := by
  intro row hrow
  obtain ⟨values, hvalues, rfl⟩ := List.mem_map.mp hrow
  obtain ⟨vector, hvector, rfl⟩ := List.mem_map.mp hvalues
  rw [length_vectorBytes, (h.vectors_accepted.accepted vector hvector).length]

theorem length_publishedVectors (h : Publishable unitNorm options documents occurrences vectors) :
    (publishedVectors prims options documents vectors).length =
      64 + vectors.length * options.embeddingProfile.dimensions * 4 := by
  have hrows : ((vectors.map (·.values)).flatMap vectorBytes).length =
      vectors.length * (options.embeddingProfile.dimensions * 4) := by
    rw [List.flatMap_def, length_flatten_of_length h.length_row, List.length_map, List.length_map]
  rw [publishedVectors, vectorFile_eq]
  simp only [List.length_append, length_vectorMarks, length_toLeBytes, length_orderBytes, hrows]
  rw [Nat.mul_assoc]
  omega

/-- The vector file has the header and the length that the manifest tells. -/
theorem validateVectorFile_published
    (h : Publishable unitNorm options documents occurrences vectors)
    (hlength : (publishedVectors prims options documents vectors).length < 2 ^ 64) :
    validateVectorFile (publishedVectors prims options documents vectors)
      (publishedIndex prims storage options documents occurrences vectors).manifest.vectors =
        .ok () := by
  have hsize := @length_publishedVectors prims _ _ _ _ _ h
  rw [hsize] at hlength
  have hfile := vectorFile_eq vectors.length options.embeddingProfile.dimensions
    (orderBytes (orderDigest prims documents)) (vectors.map (·.values))
  generalize hrest : toLeBytes 8 vectors.length ++ (toLeBytes 4 options.embeddingProfile.dimensions ++
    (toLeBytes 4 0 ++ (orderBytes (orderDigest prims documents) ++
      (vectors.map (·.values)).flatMap vectorBytes))) = rest at hfile
  have hmarks := length_vectorMarks
  -- the first sixteen bytes are the same in every file
  have hfirst : ∀ n ≤ 16, (vectorMarks ++ rest).take n = vectorMarks.take n := fun n hn =>
    List.take_append_of_le_length (hmarks ▸ hn)
  have hat : ∀ n < 16, (vectorMarks ++ rest)[n]? = vectorMarks[n]? := fun n hn =>
    List.getElem?_append_left (hmarks ▸ hn)
  have hcount : headerField (vectorMarks ++ rest) 16 24 = vectors.length := by
    rw [headerField_eq, ← hrest, segment_field hmarks (by rw [length_toLeBytes]),
      ofLeBytes_toLeBytes]
    exact Nat.mod_eq_of_lt h.vectors_accepted.length_lt
  have hdimensions : headerField (vectorMarks ++ rest) 24 28 =
      (options.embeddingProfile.dimensions : ℕ) := by
    rw [headerField_eq, ← hrest, ← List.append_assoc, segment_field
      (by rw [List.length_append, hmarks, length_toLeBytes]) (by rw [length_toLeBytes]),
      ofLeBytes_toLeBytes]
    exact Nat.mod_eq_of_lt options.embeddingProfile.dimensions.isLt
  have hreserved : headerField (vectorMarks ++ rest) 28 32 = 0 := by
    rw [headerField_eq, ← hrest, ← List.append_assoc, ← List.append_assoc, segment_field
      (by simp only [List.length_append, hmarks, length_toLeBytes]) (by rw [length_toLeBytes]),
      ofLeBytes_toLeBytes, Nat.zero_mod]
  have horder : ((vectorMarks ++ rest).take 64).drop 32 =
      orderBytes (orderDigest prims documents) := by
    rw [List.drop_take, ← hrest, ← List.append_assoc, ← List.append_assoc, ← List.append_assoc]
    exact segment_field (by simp only [List.length_append, hmarks, length_toLeBytes])
      (by rw [length_orderBytes])
  show validateVectorFile (vectorFile vectors.length options.embeddingProfile.dimensions
    (orderBytes (orderDigest prims documents)) (vectors.map (·.values))) _ = _
  have hsize : (vectorMarks ++ rest).length =
      64 + vectors.length * options.embeddingProfile.dimensions * 4 := hfile ▸ hsize
  rw [hfile]
  simp only [validateVectorFile, bind_eq_ok, exists_unit, throwIf_eq_ok, not_or, not_not,
    orThrow_eq_ok, checkedMul_eq_some, checkedAdd_eq_some]
  refine ⟨by omega, ⟨?_, ?_, ?_, ?_, ?_, hreserved, hcount, hdimensions⟩, _,
    decodeSha256_digest _, horder, _, ⟨?_, rfl⟩, _, ⟨?_, rfl⟩, _, ⟨hlength, rfl⟩, hsize⟩
  · rw [hfirst 8 (by decide)]
    decide +kernel
  · rw [headerField, hfirst 12 (by decide)]
    decide +kernel
  · rw [headerField, hfirst 14 (by decide)]
    decide +kernel
  · rw [hat 14 (by decide)]
    decide +kernel
  · rw [hat 15 (by decide)]
    decide +kernel
  · show vectors.length * (options.embeddingProfile.dimensions : ℕ) < 2 ^ 64
    omega
  · show vectors.length * (options.embeddingProfile.dimensions : ℕ) * 4 < 2 ^ 64
    omega

/-- The database of occurrences tells what the manifest tells. -/
theorem validateOccurrenceLookup_published (hread : readers.lookup (storage.lookup
      (publishedLookup options occurrences)) = some (publishedLookup options occurrences).stored) :
    validateOccurrenceLookupMetadata readers (storage.lookup (publishedLookup options occurrences))
      (publishedIndex prims storage options documents occurrences vectors).manifest = .ok () := by
  have hlength : (publishedLookup options occurrences).stored.occurrences.length =
      occurrences.length := by
    rw [OccurrenceLookup.stored, List.length_map]
    exact List.length_map ..
  rw [validateOccurrenceLookupMetadata, hread]
  refine bind_eq_ok.mpr ⟨_, rfl, bind_eq_ok.mpr ⟨_, rfl, bind_eq_ok.mpr ⟨(), rfl,
    bind_eq_ok.mpr ⟨_, rfl, bind_eq_ok.mpr ⟨(), ?_, bind_eq_ok.mpr ⟨_, rfl, bind_eq_ok.mpr ⟨(), ?_,
      bind_eq_ok.mpr ⟨_, rfl, bind_eq_ok.mpr ⟨(), ?_, ?_⟩⟩⟩⟩⟩⟩⟩⟩⟩
  · exact throwIf_eq_ok.mpr (not_not.mpr rfl)
  · exact throwIf_eq_ok.mpr (not_not.mpr rfl)
  · exact throwIf_eq_ok.mpr (not_not.mpr rfl)
  · exact throwIf_eq_ok.mpr (not_not.mpr hlength)

/-- No row of the lexical tables is out of bounds. -/
theorem not_outOfBounds_written (sha256 : List UInt8 → Pipeline.Digest)
    (documents : List FastDocument) :
    ¬ (writtenLexicalTables sha256 documents).OutOfBounds documents.length := by
  have hposting : ∀ posting ∈ documents.flatMap FastDocument.postings, posting.termFrequency ≠ 0 ∧
      posting.documentOrdinal ∈ (documents.map FastDocument.lexicalRow).map (·.documentOrdinal) := by
    intro posting hposting
    obtain ⟨document, hdocument, hposting⟩ := List.mem_flatMap.mp hposting
    obtain ⟨entry, hentry, rfl⟩ := List.mem_map.mp hposting
    have hterm : document.terms.get? entry.1 = some entry.2 :=
      SortedMap.get?_eq_some_iff.mpr hentry
    exact ⟨(FastDocument.terms_pos hterm).ne',
      List.mem_map_of_mem (List.mem_map_of_mem hdocument)⟩
  rintro (⟨posting, hmem, hzero⟩ | ⟨frequency, hmem, hbound⟩ | ⟨posting, hmem, habsent⟩)
  · exact (hposting posting hmem).1 hzero
  · obtain ⟨entry, hentry, rfl⟩ := List.mem_map.mp hmem
    have hget : (collectedFrequency documents).get? entry.1 = some entry.2 :=
      SortedMap.get?_eq_some_iff.mpr hentry
    rw [get?_collectedFrequency] at hget
    split at hget
    · cases hget
    · next hne =>
      have heq := Option.some.inj hget
      have hle := frequencyOf_le documents entry.1
      omega
  · exact habsent (hposting posting hmem).2

theorem validateSqliteLexical_published {content : List UInt8}
    (h : LexicallyWritable documents) (hne : documents ≠ []) (hlt : documents.length < 2 ^ 63)
    (hread : readers.lexicalTables content =
      some (writtenLexicalTables prims.sha256 documents).stored) :
    validateSqliteLexicalMetadata readers content documents.length
        (orderDigest prims documents).val =
      .ok (documents.length, (documents.map fun document => document.tokens.length).sum) := by
  have hordinals : (documents.map FastDocument.lexicalRow).map (·.documentOrdinal) =
      List.range documents.length := by
    refine List.ext_getElem? fun i => ?_
    rw [List.map_map, List.getElem?_map]
    by_cases hi : i < documents.length
    · rw [List.getElem?_eq_getElem hi, List.getElem?_range hi]
      exact congrArg some (h.ordinals i _ (List.getElem?_eq_getElem hi))
    · rw [List.getElem?_eq_none (not_lt.mp hi), List.getElem?_eq_none
        (by rw [List.length_range]; exact not_lt.mp hi)]
      rfl
  have hpos : 0 < documents.length := List.length_pos_iff.mpr hne
  have hminimum : (List.range documents.length).min? = some 0 :=
    List.min?_eq_some_iff.mpr ⟨List.mem_range.mpr hpos, fun _ _ => Nat.zero_le _⟩
  have hmaximum : (List.range documents.length).max? = some (documents.length - 1) := by
    refine List.max?_eq_some_iff.mpr ⟨List.mem_range.mpr (by omega), fun n hn => ?_⟩
    have hn := List.mem_range.mp hn
    omega
  have hcount : parseU64 (toString documents.length) = some documents.length :=
    parseU64_toString (hlt.trans (by decide))
  have hcounts : ((writtenLexicalTables prims.sha256 documents).documents.map
      (·.documentOrdinal)).length = documents.length := by
    rw [List.length_map]
    exact List.length_map ..
  simp only [validateSqliteLexicalMetadata, hread, readFile, orThrow, ok_bind, bind_eq_ok,
    exists_unit, throwIf_eq_ok]
  refine ⟨?_, toString documents.length, rfl, documents.length, ?_,
    toString (documents.map fun document => document.tokens.length).sum, rfl,
    (documents.map fun document => document.tokens.length).sum, ?_, ?_, not_not.mpr rfl,
    documents.length - 1, ?_, ?_, documents.length, ?_, not_outOfBounds_written _ _, rfl⟩
  · exact fun hbad => hbad.elim (· rfl) fun hbad => hbad.elim (· rfl) (· rfl)
  · rw [hcount]
  · rw [parseU64_toString h.total]
  · refine forM_eq_ok.mpr fun entry hentry => ?_
    simp only [List.mem_cons, List.not_mem_nil, or_false] at hentry
    rcases hentry with rfl | rfl | rfl | rfl | rfl
    all_goals exact bind_eq_ok.mpr ⟨_, rfl, throwIf_eq_ok.mpr (not_not.mpr rfl)⟩
  · rw [toI64_eq_some.mpr ⟨by omega, rfl⟩]
  · have hrows : ((writtenLexicalTables prims.sha256 documents).stored.tables.documents.map
        (·.documentOrdinal)) = List.range documents.length := hordinals
    rw [hrows]
    exact fun hbad => hbad.elim (· List.length_range) fun hbad => hbad.elim (· hminimum) (· hmaximum)
  · rw [toI64_eq_some.mpr ⟨hlt, rfl⟩]

/-- There are fewer documents than the length of the vector file. -/
theorem Publishable.documents_lt (h : Publishable unitNorm options documents occurrences vectors)
    (hlength : (publishedVectors prims options documents vectors).length < 2 ^ 64) :
    documents.length < 2 ^ 62 := by
  rw [length_publishedVectors h, h.vector_count] at hlength
  have hprofile := h.profile
  simp only [validateEmbeddingProfile, bind_eq_ok, exists_unit, throwIf_eq_ok, not_or] at hprofile
  have hne : (options.embeddingProfile.dimensions : ℕ) ≠ 0 := fun hzero =>
    hprofile.1.2.2.2.1 (Fin.ext hzero)
  have hle : documents.length * 1 ≤ documents.length * options.embeddingProfile.dimensions :=
    Nat.mul_le_mul_left _ (Nat.one_le_iff_ne_zero.mpr hne)
  omega

theorem openLexical_published (h : Publishable unitNorm options documents occurrences vectors)
    (hread : ReadsBack storage readers
      (publishedIndex prims storage options documents occurrences vectors)) :
    openLexical readers (storage.lexical (publishedLexical prims documents options.lexicalFormat))
        (publishedIndex prims storage options documents occurrences vectors).manifest =
      .ok (lexicalBackend documents options.lexicalFormat) := by
  have hlexical : (publishedIndex prims storage options documents occurrences vectors).lexical =
      publishedLexical prims documents options.lexicalFormat := rfl
  have hschema : (publishedIndex prims storage options documents occurrences
      vectors).manifest.lexical.schema =
        if options.lexicalFormat = .sqliteV3 then some sqliteLexicalSchema else none := by
    show (if decide (options.lexicalFormat = .sqliteV3) = true then _ else _) = _
    simp only [decide_eq_true_iff]
  have htables := hread.lexicalTables (writtenLexicalTables prims.sha256 documents)
  rw [hlexical] at htables
  rw [openLexical, hschema]
  cases hformat : options.lexicalFormat with
  | jsonV2 => rfl
  | sqliteV3 =>
    rw [hformat] at htables
    have hcounts := validateSqliteLexical_published (h.writable hformat) h.documents_accepted.ne_nil
      ((h.documents_lt hread.vectors_lt).trans (by decide)) (htables rfl)
    exact bind_eq_ok.mpr ⟨_, hcounts, rfl⟩

/-- The index of the rows is opened. -/
theorem open_publishedIndex (h : Publishable unitNorm options documents occurrences vectors)
    (hread : ReadsBack storage readers
      (publishedIndex prims storage options documents occurrences vectors)) :
    OpenFastIndex.open prims readers
        ((publishedIndex prims storage options documents occurrences vectors).directory storage) =
      .ok ((publishedIndex prims storage options documents occurrences vectors).opened storage
        (lexicalBackend documents options.lexicalFormat)) := by
  set index := publishedIndex prims storage options documents occurrences vectors with hindex
  have hdocuments : index.documents.flatten = documents := RowWriter.flatten_close_ofRows documents
  have hoccurrences : index.occurrences.flatten = occurrences :=
    RowWriter.flatten_close_ofRows occurrences
  -- every file is at the path that the manifest tells
  have hlexicalPath : index.manifest.lexical.path = "lexical/index.sqlite3" ∨
      index.manifest.lexical.path = "lexical/index.json" := by
    show (if _ then _ else _) = _ ∨ (if _ then _ else _) = _
    split
    · exact .inl rfl
    · exact .inr rfl
  have hpaths : (index.directory storage).artifact index.manifest.documents.path =
        some (storage.documents index.documents) ∧
      (index.directory storage).artifact index.manifest.occurrences.path =
        some (storage.occurrences index.occurrences) ∧
      (index.directory storage).artifact index.manifest.vectors.path = some index.vectors ∧
      (index.directory storage).artifact index.manifest.lexical.path =
        some (storage.lexical index.lexical) ∧
      (index.directory storage).artifact index.manifest.occurrenceLookup.path =
        some (storage.lookup index.occurrenceLookup) := by
    have hd : index.manifest.documents.path = "documents.parquet" := rfl
    have ho : index.manifest.occurrences.path = "occurrences.parquet" := rfl
    have hv : index.manifest.vectors.path = "vectors.f32" := rfl
    have hl : index.manifest.occurrenceLookup.path = "occurrence-index.sqlite3" := rfl
    simp only [FastIndex.directory, hd, ho, hv, hl]
    rcases hlexicalPath with hpath | hpath <;> rw [hpath] <;> simp
  obtain ⟨hd, ho, hv, hx, hl⟩ := hpaths
  have hartifact : ∀ bytes : List UInt8,
      validateArtifact prims bytes bytes.length (prims.sha256 bytes).val = .ok () := fun bytes =>
    throwIf_eq_ok.mpr (not_or.mpr ⟨not_not.mpr rfl, not_not.mpr rfl⟩)
  rw [OpenFastIndex.open, openInternal]
  refine bind_eq_ok.mpr ⟨index.manifest, rfl, bind_eq_ok.mpr ⟨(), validate_published h, ?_⟩⟩
  simp only [hd, ho, hv, hx, hl, hread.document_rows, hread.occurrence_rows, readFile, orThrow,
    ok_bind, hdocuments, hoccurrences]
  refine bind_eq_ok.mpr ⟨(), throwIf_eq_ok.mpr (not_not.mpr rfl), bind_eq_ok.mpr ⟨(),
    throwIf_eq_ok.mpr (not_not.mpr rfl), bind_eq_ok.mpr ⟨(), hartifact _, bind_eq_ok.mpr ⟨(),
      hartifact _, bind_eq_ok.mpr ⟨(), validateVectorFile_published h hread.vectors_lt,
        bind_eq_ok.mpr ⟨(), hartifact _, bind_eq_ok.mpr ⟨(), hartifact _, bind_eq_ok.mpr ⟨(),
          hartifact _, bind_eq_ok.mpr ⟨(), validateOccurrenceLookup_published hread.lookup,
            bind_eq_ok.mpr ⟨_, openLexical_published h hread, rfl⟩⟩⟩⟩⟩⟩⟩⟩⟩⟩

/-! ### The vectors of the file -/

/-- The bytes at the place of an ordinal are the vector that was given for it. -/
theorem readVectorRow_published (h : Publishable unitNorm options documents occurrences vectors)
    (hlength : (publishedVectors prims options documents vectors).length < 2 ^ 64)
    {ordinal : ℕ} {vector : OrderedVector} (hvector : vectors[ordinal]? = some vector) :
    readVectorRow (publishedVectors prims options documents vectors)
      options.embeddingProfile.dimensions ordinal = .ok vector.values := by
  have hsize := @length_publishedVectors prims _ _ _ _ _ h
  rw [hsize] at hlength
  have hwidth : vector.values.length = options.embeddingProfile.dimensions :=
    (h.vectors_accepted.accepted vector (List.mem_of_getElem? hvector)).length
  have hordinal : ordinal < vectors.length := (List.getElem?_eq_some_iff.mp hvector).1
  have hrow : ((vectors.map (·.values)).map vectorBytes)[ordinal]? =
      some (vectorBytes vector.values) := by
    rw [List.getElem?_map, List.getElem?_map, hvector]
    rfl
  have hheader : (vectorHeader vectors.length options.embeddingProfile.dimensions
      (orderBytes (orderDigest prims documents))).length = 64 := by
    have hempty := vectorFile_eq vectors.length options.embeddingProfile.dimensions
      (orderBytes (orderDigest prims documents)) []
    rw [vectorFile, List.flatMap_nil, List.append_nil, List.append_nil] at hempty
    rw [hempty]
    simp only [List.length_append, length_vectorMarks, length_toLeBytes, length_orderBytes]
  -- the row is a segment of the bytes after the header
  have hsegment := segment_flatten h.length_row hrow
  have hend : ordinal * (options.embeddingProfile.dimensions * 4) +
      options.embeddingProfile.dimensions * 4 ≤ vectors.length *
        (options.embeddingProfile.dimensions * 4) := by
    rw [← Nat.succ_mul]
    exact Nat.mul_le_mul_right _ hordinal
  have hread : ((publishedVectors prims options documents vectors).drop
      (64 + ordinal * (options.embeddingProfile.dimensions * 4))).take
        (options.embeddingProfile.dimensions * 4) = vectorBytes vector.values := by
    rw [publishedVectors, vectorFile, ← List.drop_drop, List.drop_left' hheader, List.flatMap_def,
      ← hsegment, Tiling.segment, Nat.succ_mul, Nat.add_sub_cancel_left]
  have hbytes : (vectorBytes vector.values).length = options.embeddingProfile.dimensions * 4 := by
    rw [length_vectorBytes, hwidth]
  have hstart : (vectorHeaderBytes : ℕ) = 64 := rfl
  rw [Nat.mul_assoc] at hlength
  simp only [readVectorRow, bind_eq_ok, exists_unit, throwIf_eq_ok, orThrow_eq_ok,
    checkedMul_eq_some, checkedAdd_eq_some, not_not, pure_eq_ok, hstart]
  refine ⟨_, ⟨?_, rfl⟩, _, ⟨?_, rfl⟩, _, ⟨?_, rfl⟩, ?_, ?_⟩
  · omega
  · omega
  · omega
  · rw [hread, hbytes]
  · rw [hread]
    exact decodeVector_vectorBytes vector.values

end Open

end LivefireRag.Index
