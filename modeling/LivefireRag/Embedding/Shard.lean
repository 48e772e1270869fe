import LivefireRag.Lib.Chunks
import LivefireRag.Lib.Float32
import LivefireRag.Lib.Hex
import LivefireRag.Embedding.TaskPart

/-!
# The format of a part

A part is a shard: a header of 64 bytes, then the vectors of its rows, each scalar in
the four bytes of its bits. `EmbeddingShard.open` reads a part back as far as it is
one; `EmbeddingShardWriter` writes the header first and one vector after another.

What the writer finishes is opened with the same header and the same vectors
(`open_shardBytes`), and it is verified as the part of its task when its vectors pass
the check of single vectors (`verifyEmbeddingTaskPart_shardBytes`).
-/

namespace LivefireRag.Embedding

open Machine Fallible Tiling Chunks Bytes

def embeddingShardMagic : List UInt8 := [76, 70, 82, 69, 77, 66, 48, 49]
def embeddingShardHeaderBytes : ℕ := 64
def embeddingShardVersion : ℕ := 1
def embeddingShardDtypeF32Le : UInt8 := 1
def embeddingShardFlags : UInt8 := 0
def embeddingShardReserved : ℕ := 0

/-! ### The header -/

/-- The 32 bytes a digest spells. -/
def orderBytes (digest : Pipeline.Digest) : List UInt8 :=
  (Hex.decode digest.val.toList).getD []

/-- The digest that spells 32 bytes. -/
def orderOf (bytes : List UInt8) (h : bytes.length = 32) : Pipeline.Digest :=
  ⟨String.ofList (Hex.encode bytes), by
    refine ⟨by rw [String.toList_ofList, Hex.length_encode, h], fun c hc => ?_⟩
    rw [String.toList_ofList] at hc
    exact Hex.isLowerDigit_of_mem_encode hc⟩

/-- The digest of 64 digits a caller hands over, as bytes. -/
def decodeSha256Hex (value : String) : Except EmbeddingError (List UInt8) := do
  throwIf (value.utf8ByteSize ≠ 64 ∨ ∃ c ∈ value.toList, (Hex.digitValue c).isNone)
    (.invalid "SHA-256 hex digest")
  orThrow (Hex.decode value.toList) (.invalid "SHA-256 hex digest")

def encodeHeader (metadata : EmbeddingShardMetadata) : List UInt8 :=
  embeddingShardMagic ++ (toLeBytes 4 embeddingShardHeaderBytes ++
    (toLeBytes 2 embeddingShardVersion ++ ([embeddingShardDtypeF32Le, embeddingShardFlags] ++
      (toLeBytes 8 metadata.rowCount ++ (toLeBytes 4 metadata.dimensions ++
        (toLeBytes 4 embeddingShardReserved ++ orderBytes metadata.orderSha256))))))

/-- The number a field of the header holds. -/
def headerField (bytes : List UInt8) (start stop : ℕ) : ℕ := ofLeBytes (segment bytes start stop)

def readHeader (bytes : List UInt8) : Except EmbeddingError EmbeddingShardMetadata :=
  if h : bytes.length < embeddingShardHeaderBytes then .error .io
  else do
    throwIf (segment bytes 0 8 ≠ embeddingShardMagic ∨
        headerField bytes 8 12 ≠ embeddingShardHeaderBytes ∨
        headerField bytes 12 14 ≠ embeddingShardVersion ∨
        segment bytes 14 15 ≠ [embeddingShardDtypeF32Le] ∨
        segment bytes 15 16 ≠ [embeddingShardFlags] ∨
        headerField bytes 28 32 ≠ embeddingShardReserved)
      (.invalid "embedding shard header")
    let rowCount := headerField bytes 16 24 % 2 ^ 64
    let dimensions := headerField bytes 24 28 % 2 ^ 32
    throwIf (dimensions = 0) (.invalid "embedding shard dimensions")
    return {
      rowCount := ⟨rowCount, Nat.mod_lt _ (Nat.two_pow_pos 64)⟩
      dimensions := ⟨dimensions, Nat.mod_lt _ (Nat.two_pow_pos 32)⟩
      orderSha256 := orderOf (segment bytes 32 64) (length_segment (not_lt.mp h)) }

def validateFileLength (bytes : List UInt8) (metadata : EmbeddingShardMetadata) :
    Except EmbeddingError Unit := do
  let payload ← orThrow
    ((checkedMul 64 metadata.rowCount metadata.dimensions).bind (checkedMul 64 · 4))
    (.invalid "embedding shard byte length")
  let expected ← orThrow (checkedAdd 64 embeddingShardHeaderBytes payload)
    (.invalid "embedding shard byte length")
  throwIf (bytes.length ≠ expected) (.invalid "embedding shard byte length")

/-! ### Vectors -/

/-- A vector as it is written. -/
def vectorBytes (vector : List F32) : List UInt8 := vector.flatMap F32.toLeBytes

def decodeVector (bytes : List UInt8) : List F32 := (chunksExact 4 bytes).map F32.ofLeBytes

/-- The next `remaining` vectors. -/
def readVectors (dimensions : ℕ) : ℕ → List UInt8 → Except EmbeddingError (List (List F32))
  | 0, _ => .ok []
  | remaining + 1, bytes => do
    throwIf (bytes.length < dimensions * 4) .io
    let vector := decodeVector (bytes.take (dimensions * 4))
    throwIf (∃ value ∈ vector, ¬ value.IsFinite) (.invalid "embedding shard non-finite vector")
    let rest ← readVectors dimensions remaining (bytes.drop (dimensions * 4))
    return vector :: rest

/-- The check of a single vector. `unitNorm` is whether its Euclidean norm, computed in
64-bit floats, differs from 1 by at most `10 ^ -4`. -/
def validateVector (unitNorm : List F32 → Bool) (vector : List F32) (dimensions : ℕ)
    (normalization : String) : Except EmbeddingError Unit := do
  throwIf (vector.length ≠ dimensions ∨ ∃ value ∈ vector, ¬ value.IsFinite)
    (.invalid "vector shape or finiteness")
  throwIf (normalization = "l2" ∧ unitNorm vector = false) (.invalid "vector norm")

/-! ### Shards -/

structure EmbeddingShard where
  bytes : List UInt8
  metadata : EmbeddingShardMetadata

def EmbeddingShard.vectors (shard : EmbeddingShard) : Except EmbeddingError (List (List F32)) :=
  readVectors shard.metadata.dimensions shard.metadata.rowCount
    (shard.bytes.drop embeddingShardHeaderBytes)

def EmbeddingShard.open (bytes : List UInt8) : Except EmbeddingError EmbeddingShard := do
  let metadata ← readHeader bytes
  validateFileLength bytes metadata
  let shard : EmbeddingShard := ⟨bytes, metadata⟩
  let _ ← shard.vectors
  return shard

def EmbeddingShardExpectation.metadata (expected : EmbeddingShardExpectation) :
    EmbeddingShardMetadata :=
  ⟨expected.rowCount, expected.dimensions, expected.orderSha256⟩

def EmbeddingShard.openExpected (bytes : List UInt8) (expected : EmbeddingShardExpectation) :
    Except EmbeddingError EmbeddingShard := do
  let shard ← EmbeddingShard.open bytes
  throwIf (shard.metadata ≠ expected.metadata) (.invalid "embedding shard identity")
  return shard

def EmbeddingShard.validateNormalization (unitNorm : List F32 → Bool) (shard : EmbeddingShard)
    (normalization : String) : Except EmbeddingError Unit :=
  if normalization = "none" then .ok ()
  else do
    throwIf (normalization ≠ "l2") (.invalid "embedding shard normalization")
    let vectors ← shard.vectors
    forM vectors fun vector =>
      validateVector unitNorm vector shard.metadata.dimensions normalization

theorem length_mod_lt (bytes : List UInt8) : bytes.length % 2 ^ 64 < 2 ^ 64 :=
  Nat.mod_lt _ (Nat.two_pow_pos 64)

/-- What a part is verified by. -/
def shardReader (unitNorm : List F32 → Bool) (sha256 : List UInt8 → Pipeline.Digest) :
    ShardReader (List UInt8) where
  openExpected bytes expected := do
    let shard ← EmbeddingShard.openExpected bytes expected
    return shard.metadata
  validateNormalization bytes normalization := do
    let shard ← EmbeddingShard.open bytes
    shard.validateNormalization unitNorm normalization
  size bytes := ⟨bytes.length % 2 ^ 64, length_mod_lt bytes⟩
  sha256 := sha256

structure EmbeddingShardWriter where
  written : List UInt8
  metadata : EmbeddingShardMetadata
  rowsWritten : ℕ

def EmbeddingShardWriter.create (metadata : EmbeddingShardMetadata) :
    Except EmbeddingError EmbeddingShardWriter := do
  throwIf (metadata.dimensions = 0) (.invalid "embedding shard dimensions")
  return ⟨encodeHeader metadata, metadata, 0⟩

def EmbeddingShardWriter.writeVector (writer : EmbeddingShardWriter) (vector : List F32) :
    Except EmbeddingError EmbeddingShardWriter := do
  throwIf (writer.metadata.rowCount ≤ writer.rowsWritten ∨
      vector.length ≠ writer.metadata.dimensions) (.invalid "embedding shard vector shape")
  throwIf (∃ value ∈ vector, ¬ value.IsFinite) (.invalid "embedding shard non-finite vector")
  return { writer with
    written := writer.written ++ vectorBytes vector
    rowsWritten := writer.rowsWritten + 1 }

/-- The file a finished writer leaves. -/
def EmbeddingShardWriter.finish (writer : EmbeddingShardWriter) :
    Except EmbeddingError (List UInt8) := do
  throwIf (writer.rowsWritten ≠ writer.metadata.rowCount) (.invalid "embedding shard row count")
  return writer.written

/-! ### The header read back -/

theorem hexDecode_digest (digest : Pipeline.Digest) :
    ∃ bytes, Hex.decode digest.val.toList = some bytes ∧ Hex.encode bytes = digest.val.toList := by
  obtain ⟨hlength, hhex⟩ := digest.property
  exact Hex.encode_decode (by rw [hlength]) hhex

@[simp] theorem length_orderBytes (digest : Pipeline.Digest) :
    (orderBytes digest).length = 32 := by
  obtain ⟨bytes, hdecode, hencode⟩ := hexDecode_digest digest
  have hlength := Hex.length_encode bytes
  rw [hencode, digest.property.1] at hlength
  rw [orderBytes, hdecode, Option.getD_some]
  omega

theorem orderOf_orderBytes (digest : Pipeline.Digest) (h : (orderBytes digest).length = 32) :
    orderOf (orderBytes digest) h = digest := by
  obtain ⟨bytes, hdecode, hencode⟩ := hexDecode_digest digest
  apply Subtype.ext
  show String.ofList (Hex.encode (orderBytes digest)) = digest.val
  rw [orderBytes, hdecode, Option.getD_some, hencode, String.ofList_toList]

/-- The bytes of a digest are what a caller decodes from its text. -/
theorem decodeSha256Hex_digest (digest : Pipeline.Digest) :
    decodeSha256Hex digest.val = .ok (orderBytes digest) := by
  obtain ⟨hlength, hhex⟩ := digest.property
  obtain ⟨bytes, hdecode, -⟩ := hexDecode_digest digest
  have hdigit : ∀ c ∈ digest.val.toList, ∃ n < 16, c = Nat.digitChar n := fun c hc =>
    Hex.IsLowerDigit.exists_digitChar (hhex c hc)
  have hsize := digest.utf8ByteSize_eq
  have hvalues : ¬ (digest.val.utf8ByteSize ≠ 64 ∨
      ∃ c ∈ digest.val.toList, (Hex.digitValue c).isNone) := by
    rintro (hne | ⟨c, hc, hnone⟩)
    · exact hne hsize
    · obtain ⟨n, hn, rfl⟩ := hdigit c hc
      rw [Hex.digitValue_digitChar hn] at hnone
      cases hnone
  rw [decodeSha256Hex, throwIf_bind_of_not hvalues, orderBytes, hdecode]
  rfl

@[simp] theorem length_encodeHeader (metadata : EmbeddingShardMetadata) :
    (encodeHeader metadata).length = 64 := by
  simp [encodeHeader, embeddingShardMagic]

/-- **The header is read back**, whatever follows it. -/
theorem readHeader_encodeHeader {metadata : EmbeddingShardMetadata} (rest : List UInt8)
    (h : metadata.dimensions ≠ 0) : readHeader (encodeHeader metadata ++ rest) = .ok metadata := by
  obtain ⟨rowCount, dimensions, order⟩ := metadata
  have hlong : ¬ (encodeHeader ⟨rowCount, dimensions, order⟩ ++ rest).length <
      embeddingShardHeaderBytes := by
    rw [List.length_append, length_encodeHeader]
    exact not_lt.mpr (Nat.le_add_right _ _)
  -- each field, between the fields before it and those after it
  have hfield : ∀ (before field after : List UInt8) (a b : ℕ),
      encodeHeader ⟨rowCount, dimensions, order⟩ ++ rest = before ++ (field ++ after) →
      before.length = a → a + field.length = b →
      segment (encodeHeader ⟨rowCount, dimensions, order⟩ ++ rest) a b = field :=
    fun before field after a b heq ha hb => by rw [heq]; exact segment_field ha hb
  have hnumber : ∀ w n, ofLeBytes (toLeBytes w n) = n % 256 ^ w := ofLeBytes_toLeBytes
  let magic := embeddingShardMagic
  let size := toLeBytes 4 embeddingShardHeaderBytes
  let version := toLeBytes 2 embeddingShardVersion
  let rows := toLeBytes 8 rowCount
  let width := toLeBytes 4 dimensions
  let reserved := toLeBytes 4 embeddingShardReserved
  have hmagic := hfield [] magic _ 0 8 (by rw [List.nil_append, encodeHeader, List.append_assoc])
    rfl rfl
  have hsize := hfield magic size _ 8 12 (by simp only [encodeHeader, List.append_assoc]; rfl)
    rfl rfl
  have hversion := hfield (magic ++ size) version _ 12 14
    (by simp only [encodeHeader, List.append_assoc]; rfl) rfl rfl
  have hdtype := hfield (magic ++ (size ++ version)) [embeddingShardDtypeF32Le] _ 14 15
    (by simp only [encodeHeader, List.append_assoc]; rfl) rfl rfl
  have hflags := hfield (magic ++ (size ++ (version ++ [embeddingShardDtypeF32Le])))
    [embeddingShardFlags] _ 15 16 (by simp only [encodeHeader, List.append_assoc]; rfl) rfl rfl
  let start := magic ++ (size ++ (version ++ [embeddingShardDtypeF32Le, embeddingShardFlags]))
  have hrows := hfield start rows _ 16 24
    (by simp only [encodeHeader, List.append_assoc, start]; rfl) rfl rfl
  have hwidth := hfield (start ++ rows) width _ 24 28
    (by simp only [encodeHeader, List.append_assoc, start]; rfl)
    rfl rfl
  have hreserved := hfield (start ++ (rows ++ width)) reserved _ 28 32
    (by simp only [encodeHeader, List.append_assoc, start]; rfl)
    rfl rfl
  have horder := hfield (start ++ (rows ++ (width ++ reserved))) (orderBytes order) rest 32 64
    (by simp only [encodeHeader, List.append_assoc, start]; rfl)
    rfl (by rw [length_orderBytes])
  have hdimensions : (dimensions : ℕ) % 256 ^ 4 % 2 ^ 32 = dimensions := by
    have hlt := dimensions.isLt
    omega
  have hcount : (rowCount : ℕ) % 256 ^ 8 % 2 ^ 64 = rowCount := by
    have hlt := rowCount.isLt
    omega
  rw [readHeader, dif_neg hlong]
  simp only [headerField, hmagic, hsize, hversion, hdtype, hflags, hrows, hwidth, hreserved,
    horder, orderOf_orderBytes, hnumber, size, version, rows, width, reserved, hdimensions, hcount]
  have hpositive : ¬ (dimensions : ℕ) = 0 := fun hzero => h (Fin.ext hzero)
  rw [throwIf_bind_of_not (by decide), throwIf_bind_of_not hpositive]
  rfl

/-! ### Vectors read back -/

@[simp] theorem length_vectorBytes (vector : List F32) :
    (vectorBytes vector).length = vector.length * 4 := by
  have hlength : ∀ value ∈ vector, value.toLeBytes.length = 4 := fun value _ =>
    length_toLeBytes 4 value
  rw [vectorBytes, List.length_flatMap, List.map_congr_left hlength, List.map_const',
    List.sum_replicate_nat]

theorem decodeVector_vectorBytes (vector : List F32) :
    decodeVector (vectorBytes vector) = vector := by
  have hlength : ∀ bytes ∈ vector.map F32.toLeBytes, bytes.length = 4 := by
    intro bytes hbytes
    obtain ⟨value, -, rfl⟩ := List.mem_map.mp hbytes
    exact length_toLeBytes 4 value
  have hid : F32.ofLeBytes ∘ F32.toLeBytes = id := funext F32.ofLeBytes_toLeBytes
  rw [decodeVector, vectorBytes, List.flatMap_def, chunksExact_flatten (by decide) hlength,
    List.map_map, hid, List.map_id]

/-- A vector of the format: its shape, and finite scalars. -/
def IsShardVector (dimensions : ℕ) (vector : List F32) : Prop :=
  vector.length = dimensions ∧ ∀ value ∈ vector, value.IsFinite

/-- **The vectors are read back**, whatever follows them. -/
theorem readVectors_flatMap {dimensions : ℕ} {vectors : List (List F32)} (rest : List UInt8)
    (h : ∀ vector ∈ vectors, IsShardVector dimensions vector) :
    readVectors dimensions vectors.length (vectors.flatMap vectorBytes ++ rest) = .ok vectors := by
  induction vectors with
  | nil => rfl
  | cons vector vectors ih =>
    obtain ⟨⟨hlength, hfinite⟩, hvectors⟩ := List.forall_mem_cons.mp h
    have hbytes : (vectorBytes vector).length = dimensions * 4 := by
      rw [length_vectorBytes, hlength]
    have hshort : ¬ (vectorBytes vector ++ (vectors.flatMap vectorBytes ++ rest)).length <
        dimensions * 4 := by
      rw [List.length_append, hbytes]
      exact not_lt.mpr (Nat.le_add_right _ _)
    rw [List.flatMap_cons, List.append_assoc, List.length_cons, readVectors,
      throwIf_bind_of_not hshort, List.take_left' hbytes, List.drop_left' hbytes,
      decodeVector_vectorBytes, throwIf_bind_of_not (by push Not; exact hfinite), ih hvectors]
    rfl

/-! ### Writing and opening -/

/-- The file of a header and vectors. -/
def shardBytes (metadata : EmbeddingShardMetadata) (vectors : List (List F32)) : List UInt8 :=
  encodeHeader metadata ++ vectors.flatMap vectorBytes

/-- The vectors fill the shape the header announces, and the file has a size. -/
structure FillsShard (metadata : EmbeddingShardMetadata) (vectors : List (List F32)) : Prop where
  dimensions_ne : metadata.dimensions ≠ 0
  rows : vectors.length = metadata.rowCount
  vectors : ∀ vector ∈ vectors, IsShardVector metadata.dimensions vector
  size_lt : 64 + (metadata.rowCount : ℕ) * metadata.dimensions * 4 < 2 ^ 64

theorem FillsShard.length_shardBytes {metadata : EmbeddingShardMetadata}
    {vectors : List (List F32)} (h : FillsShard metadata vectors) :
    (shardBytes metadata vectors).length =
      64 + (metadata.rowCount : ℕ) * metadata.dimensions * 4 := by
  have hlength : ∀ bytes ∈ vectors.map vectorBytes,
      bytes.length = (metadata.dimensions : ℕ) * 4 := by
    intro bytes hbytes
    obtain ⟨vector, hvector, rfl⟩ := List.mem_map.mp hbytes
    rw [length_vectorBytes, (h.vectors vector hvector).1]
  rw [shardBytes, List.length_append, length_encodeHeader, List.flatMap_def,
    length_flatten_of_length hlength, List.length_map, h.rows, Nat.mul_assoc]

theorem validateFileLength_eq_ok {bytes : List UInt8} {metadata : EmbeddingShardMetadata}
    {u : Unit} : validateFileLength bytes metadata = .ok u ↔
      64 + (metadata.rowCount : ℕ) * metadata.dimensions * 4 < 2 ^ 64 ∧
        bytes.length = 64 + (metadata.rowCount : ℕ) * metadata.dimensions * 4 := by
  simp only [validateFileLength, bind_eq_ok, orThrow_eq_ok, throwIf_eq_ok, not_not,
    Option.bind_eq_some_iff, checkedMul_eq_some, checkedAdd_eq_some, embeddingShardHeaderBytes]
  constructor
  · rintro ⟨_, ⟨_, ⟨-, rfl⟩, -, rfl⟩, _, ⟨hlt, rfl⟩, hlength⟩
    exact ⟨hlt, hlength⟩
  · rintro ⟨hlt, hlength⟩
    exact ⟨_, ⟨_, ⟨by omega, rfl⟩, by omega, rfl⟩, _, ⟨hlt, rfl⟩, hlength⟩

/-- The vectors of a written shard. -/
theorem FillsShard.vectors_shardBytes {metadata : EmbeddingShardMetadata}
    {vectors : List (List F32)} (h : FillsShard metadata vectors) :
    EmbeddingShard.vectors ⟨shardBytes metadata vectors, metadata⟩ = .ok vectors := by
  have hpayload : (shardBytes metadata vectors).drop embeddingShardHeaderBytes =
      vectors.flatMap vectorBytes ++ [] := by
    rw [shardBytes, List.append_nil]
    exact List.drop_left' (length_encodeHeader metadata)
  have hread := readVectors_flatMap [] h.vectors
  rw [h.rows, ← hpayload] at hread
  exact hread

/-- **What is written is opened**, with the same header and the same vectors. -/
theorem FillsShard.open_shardBytes {metadata : EmbeddingShardMetadata}
    {vectors : List (List F32)} (h : FillsShard metadata vectors) :
    EmbeddingShard.open (shardBytes metadata vectors) =
      .ok ⟨shardBytes metadata vectors, metadata⟩ := by
  have hheader := readHeader_encodeHeader (vectors.flatMap vectorBytes) h.dimensions_ne
  have hlength : validateFileLength (shardBytes metadata vectors) metadata = .ok () :=
    validateFileLength_eq_ok.mpr ⟨h.size_lt, h.length_shardBytes⟩
  rw [← shardBytes] at hheader
  rw [EmbeddingShard.open, hheader, ok_bind, hlength, ok_bind]
  show (EmbeddingShard.vectors ⟨shardBytes metadata vectors, metadata⟩ >>= _) = _
  rw [h.vectors_shardBytes]
  rfl

/-- A part that is opened has the size its header announces. -/
theorem length_of_open {bytes : List UInt8} {shard : EmbeddingShard}
    (h : EmbeddingShard.open bytes = .ok shard) :
    64 + (shard.metadata.rowCount : ℕ) * shard.metadata.dimensions * 4 < 2 ^ 64 ∧
      bytes.length = 64 + (shard.metadata.rowCount : ℕ) * shard.metadata.dimensions * 4 := by
  simp only [EmbeddingShard.open, bind_eq_ok, pure_eq_ok] at h
  obtain ⟨metadata, -, _, hlength, -, -, rfl⟩ := h
  exact validateFileLength_eq_ok.mp hlength

theorem openExpected_eq_ok {bytes : List UInt8} {expected : EmbeddingShardExpectation}
    {shard : EmbeddingShard} : EmbeddingShard.openExpected bytes expected = .ok shard ↔
      EmbeddingShard.open bytes = .ok shard ∧ shard.metadata = expected.metadata := by
  simp only [EmbeddingShard.openExpected, bind_eq_ok, exists_unit, throwIf_eq_ok, not_not,
    pure_eq_ok]
  constructor
  · rintro ⟨_, hopen, hmetadata, rfl⟩
    exact ⟨hopen, hmetadata⟩
  · rintro ⟨hopen, hmetadata⟩
    exact ⟨shard, hopen, hmetadata, rfl⟩

theorem validateVector_eq_ok {unitNorm : List F32 → Bool} {vector : List F32} {dimensions : ℕ}
    {normalization : String} {u : Unit} :
    validateVector unitNorm vector dimensions normalization = .ok u ↔
      IsShardVector dimensions vector ∧ (normalization = "l2" → unitNorm vector = true) := by
  simp only [validateVector, bind_eq_ok, exists_unit, throwIf_eq_ok, not_or, not_not, not_exists,
    not_and, IsShardVector, Bool.not_eq_false]

section Verification

variable {unitNorm : List F32 → Bool} {sha256 : List UInt8 → Pipeline.Digest}

/-- **A written part is verified**, when its vectors pass the check of single vectors. -/
theorem verifyEmbeddingTaskPart_shardBytes {expected : EmbeddingShardExpectation}
    {vectors : List (List F32)} (hfills : FillsShard expected.metadata vectors)
    {normalization : String} (hnormalization : normalization = "l2" ∨ normalization = "none")
    (hvectors : ∀ vector ∈ vectors,
      validateVector unitNorm vector expected.dimensions normalization = .ok ())
    {digest : Option Pipeline.Digest}
    (hdigest : ∀ value ∈ digest, value = sha256 (shardBytes expected.metadata vectors)) :
    ∃ part, verifyEmbeddingTaskPart (shardReader unitNorm sha256)
        (shardBytes expected.metadata vectors) ⟨expected, normalization, digest⟩ = .ok part ∧
      part.sha256 = sha256 (shardBytes expected.metadata vectors) ∧
      (part.bytes : ℕ) = 64 + (expected.rowCount : ℕ) * expected.dimensions * 4 := by
  have hopen := hfills.open_shardBytes
  have hnormalized : (EmbeddingShard.validateNormalization unitNorm
      ⟨shardBytes expected.metadata vectors, expected.metadata⟩ normalization) = .ok () := by
    rcases hnormalization with rfl | rfl
    · rw [EmbeddingShard.validateNormalization, if_neg (by decide), throwIf_bind_of_not (by simp),
        hfills.vectors_shardBytes, ok_bind]
      exact forM_eq_ok.mpr hvectors
    · rfl
  let bytes := shardBytes expected.metadata vectors
  let reader := shardReader unitNorm sha256
  have hread : reader.openExpected bytes expected = .ok expected.metadata := by
    show (EmbeddingShard.openExpected bytes expected >>= _) = _
    rw [openExpected_eq_ok.mpr ⟨hopen, rfl⟩]
    rfl
  have hnormal : reader.validateNormalization bytes normalization = .ok () := by
    show (EmbeddingShard.open bytes >>= _) = _
    rw [hopen, ok_bind, hnormalized]
  have hsame : ¬ ∃ value ∈ digest, value ≠ reader.sha256 bytes := by
    rintro ⟨value, hvalue, hne⟩
    exact hne (hdigest value hvalue)
  refine ⟨⟨expected.metadata, reader.size bytes, reader.sha256 bytes⟩, ?_, rfl, ?_⟩
  · rw [verifyEmbeddingTaskPart, hread, ok_bind, hnormal, ok_bind, throwIf_bind_of_not hsame]
    rfl
  · show (shardBytes expected.metadata vectors).length % 2 ^ 64 = _
    rw [hfills.length_shardBytes]
    exact Nat.mod_eq_of_lt hfills.size_lt

/-- A verified part has the size its expectation gives. -/
theorem size_of_verified {bytes : List UInt8} {request : PartRequest}
    {part : VerifiedEmbeddingTaskPart}
    (h : verifyEmbeddingTaskPart (shardReader unitNorm sha256) bytes request = .ok part) :
    ((shardReader unitNorm sha256).size bytes : ℕ) =
      64 + (request.expected.rowCount : ℕ) * request.expected.dimensions * 4 := by
  simp only [verifyEmbeddingTaskPart, shardReader, bind_eq_ok, exists_unit, pure_eq_ok] at h
  obtain ⟨_, ⟨shard, hexpected, rfl⟩, -, -, rfl⟩ := h
  obtain ⟨hopen, hmetadata⟩ := openExpected_eq_ok.mp hexpected
  obtain ⟨hlt, hlength⟩ := length_of_open hopen
  rw [hmetadata] at hlt hlength
  show bytes.length % 2 ^ 64 = _
  rw [hlength]
  exact Nat.mod_eq_of_lt hlt

end Verification

/-! ### The writer -/

theorem writeVector_eq_ok {writer writer' : EmbeddingShardWriter} {vector : List F32} :
    writer.writeVector vector = .ok writer' ↔
      writer.rowsWritten < writer.metadata.rowCount ∧
        IsShardVector writer.metadata.dimensions vector ∧
        { writer with
          written := writer.written ++ vectorBytes vector
          rowsWritten := writer.rowsWritten + 1 } = writer' := by
  simp only [EmbeddingShardWriter.writeVector, bind_eq_ok, exists_unit, throwIf_eq_ok, not_or,
    not_le, not_not, not_exists, not_and, IsShardVector, pure_eq_ok, and_assoc]

/-- A writer after some vectors. -/
def writerAfter (metadata : EmbeddingShardMetadata) (vectors : List (List F32)) :
    EmbeddingShardWriter :=
  ⟨shardBytes metadata vectors, metadata, vectors.length⟩

theorem create_eq_ok {metadata : EmbeddingShardMetadata} {writer : EmbeddingShardWriter} :
    EmbeddingShardWriter.create metadata = .ok writer ↔
      metadata.dimensions ≠ 0 ∧ writerAfter metadata [] = writer := by
  simp only [EmbeddingShardWriter.create, bind_eq_ok, exists_unit, throwIf_eq_ok, pure_eq_ok,
    writerAfter, shardBytes, List.flatMap_nil, List.append_nil, List.length_nil, ne_eq]

/-- One more vector, as long as rows are missing. -/
theorem writeVector_writerAfter {metadata : EmbeddingShardMetadata} {vectors : List (List F32)}
    {vector : List F32} (hrows : vectors.length < metadata.rowCount)
    (hvector : IsShardVector metadata.dimensions vector) :
    (writerAfter metadata vectors).writeVector vector =
      .ok (writerAfter metadata (vectors ++ [vector])) := by
  refine writeVector_eq_ok.mpr ⟨hrows, hvector, ?_⟩
  simp [writerAfter, shardBytes]

theorem finish_eq_ok {writer : EmbeddingShardWriter} {bytes : List UInt8} :
    writer.finish = .ok bytes ↔
      writer.rowsWritten = writer.metadata.rowCount ∧ writer.written = bytes := by
  simp only [EmbeddingShardWriter.finish, bind_eq_ok, exists_unit, throwIf_eq_ok, not_not,
    pure_eq_ok]

end LivefireRag.Embedding
