import LivefireRag.Embedding.Shard

/-!
# Writing a part and reading it back

A whole run of the writer (`writeShard`) and what it leaves: the file of its header and
its vectors, exactly when they fill the announced shape (`writeShard_eq_ok`). A file that
is opened holds such vectors, and writing them again gives the file (`writeShard_of_open`).
-/

namespace LivefireRag.Embedding

open Machine Fallible Tiling Chunks Bytes

/-! ### A run of the writer -/

/-- Create a part, write every vector and finish. -/
def writeShard (metadata : EmbeddingShardMetadata) (vectors : List (List F32)) :
    Except EmbeddingError (List UInt8) := do
  let writer ← EmbeddingShardWriter.create metadata
  let writer ← vectors.foldlM EmbeddingShardWriter.writeVector writer
  writer.finish

/-- A writer that took some vectors has their bytes, and never more of them than it
announced. -/
theorem foldlM_writeVector_eq_ok {metadata : EmbeddingShardMetadata}
    {written vectors : List (List F32)} {writer : EmbeddingShardWriter} :
    vectors.foldlM EmbeddingShardWriter.writeVector (writerAfter metadata written) = .ok writer ↔
      (∀ vector ∈ vectors, IsShardVector metadata.dimensions vector) ∧
        (vectors = [] ∨ written.length + vectors.length ≤ metadata.rowCount) ∧
        writerAfter metadata (written ++ vectors) = writer := by
  induction vectors generalizing written with
  | nil => simp [pure_eq_ok]
  | cons vector vectors ih =>
    rw [List.foldlM_cons, bind_eq_ok]
    constructor
    · rintro ⟨next, hnext, hrest⟩
      obtain ⟨hrows, hvector, -⟩ := writeVector_eq_ok.mp hnext
      have hrows : written.length < metadata.rowCount := hrows
      have hvector : IsShardVector metadata.dimensions vector := hvector
      rw [writeVector_writerAfter hrows hvector] at hnext
      obtain rfl := Except.ok.inj hnext
      obtain ⟨hvectors, hcount, hwriter⟩ := ih.mp hrest
      refine ⟨List.forall_mem_cons.mpr ⟨hvector, hvectors⟩, .inr ?_, ?_⟩
      · rw [List.length_cons]
        rcases hcount with rfl | hcount
        · exact hrows
        · rw [List.length_append, List.length_singleton] at hcount
          omega
      · rwa [List.append_assoc] at hwriter
    · rintro ⟨hvectors, hcount, hwriter⟩
      obtain ⟨hvector, hvectors⟩ := List.forall_mem_cons.mp hvectors
      have hcount := hcount.resolve_left (List.cons_ne_nil _ _)
      rw [List.length_cons] at hcount
      refine ⟨_, writeVector_writerAfter (by omega) hvector, ih.mpr ⟨hvectors, .inr ?_, ?_⟩⟩
      · simp only [List.length_append, List.length_cons, List.length_nil]
        omega
      · rwa [List.append_assoc]

/-- **What a run of the writer leaves.** -/
theorem writeShard_eq_ok {metadata : EmbeddingShardMetadata} {vectors : List (List F32)}
    {bytes : List UInt8} :
    writeShard metadata vectors = .ok bytes ↔ metadata.dimensions ≠ 0 ∧
      vectors.length = metadata.rowCount ∧
      (∀ vector ∈ vectors, IsShardVector metadata.dimensions vector) ∧
      shardBytes metadata vectors = bytes := by
  simp only [writeShard, bind_eq_ok]
  constructor
  · rintro ⟨_, hcreate, writer, hwrite, hfinish⟩
    obtain ⟨hdimensions, rfl⟩ := create_eq_ok.mp hcreate
    obtain ⟨hvectors, -, rfl⟩ := foldlM_writeVector_eq_ok.mp hwrite
    obtain ⟨hrows, rfl⟩ := finish_eq_ok.mp hfinish
    exact ⟨hdimensions, hrows, hvectors, rfl⟩
  · rintro ⟨hdimensions, hrows, hvectors, rfl⟩
    refine ⟨_, create_eq_ok.mpr ⟨hdimensions, rfl⟩, _, foldlM_writeVector_eq_ok.mpr
      ⟨hvectors, .inr ?_, rfl⟩, finish_eq_ok.mpr ⟨hrows, rfl⟩⟩
    simp only [List.length_nil, Nat.zero_add, hrows, le_refl]

theorem FillsShard.writeShard_eq {metadata : EmbeddingShardMetadata} {vectors : List (List F32)}
    (h : FillsShard metadata vectors) :
    writeShard metadata vectors = .ok (shardBytes metadata vectors) :=
  writeShard_eq_ok.mpr ⟨h.dimensions_ne, h.rows, h.vectors, rfl⟩

/-! ### What an opened part consists of -/

theorem orderBytes_orderOf {bytes : List UInt8} (h : bytes.length = 32) :
    orderBytes (orderOf bytes h) = bytes := by
  show (Hex.decode (String.ofList (Hex.encode bytes)).toList).getD [] = bytes
  rw [String.toList_ofList, Hex.decode_encode, Option.getD_some]

/-- What the fields of a header hold. -/
structure HeaderFields (bytes : List UInt8) (metadata : EmbeddingShardMetadata) : Prop where
  long : 64 ≤ bytes.length
  magic : segment bytes 0 8 = embeddingShardMagic
  size : headerField bytes 8 12 = embeddingShardHeaderBytes
  version : headerField bytes 12 14 = embeddingShardVersion
  dtype : segment bytes 14 15 = [embeddingShardDtypeF32Le]
  flags : segment bytes 15 16 = [embeddingShardFlags]
  rowCount : headerField bytes 16 24 = metadata.rowCount
  dimensions : headerField bytes 24 28 = metadata.dimensions
  reserved : headerField bytes 28 32 = embeddingShardReserved
  order : segment bytes 32 64 = orderBytes metadata.orderSha256

theorem readHeader_fields {bytes : List UInt8} {metadata : EmbeddingShardMetadata}
    (h : readHeader bytes = .ok metadata) :
    metadata.dimensions ≠ 0 ∧ HeaderFields bytes metadata := by
  by_cases hshort : bytes.length < embeddingShardHeaderBytes
  · rw [readHeader, dif_pos hshort] at h
    cases h
  have hlong : 64 ≤ bytes.length := not_lt.mp hshort
  rw [readHeader, dif_neg hshort] at h
  simp only [bind_eq_ok, exists_unit, throwIf_eq_ok, not_or, not_not, pure_eq_ok] at h
  obtain ⟨⟨hmagic, hsize, hversion, hdtype, hflags, hreserved⟩, hdimensions, rfl⟩ := h
  have hrows := ofLeBytes_lt (segment bytes 16 24)
  have hwidth := ofLeBytes_lt (segment bytes 24 28)
  rw [length_segment (by omega)] at hrows hwidth
  exact ⟨fun hzero => hdimensions (congrArg Fin.val hzero), hlong, hmagic, hsize, hversion, hdtype,
    hflags, (Nat.mod_eq_of_lt hrows).symm, (Nat.mod_eq_of_lt hwidth).symm, hreserved,
    (orderBytes_orderOf (length_segment hlong)).symm⟩

theorem FillsShard.fields {metadata : EmbeddingShardMetadata} {vectors : List (List F32)}
    (h : FillsShard metadata vectors) : HeaderFields (shardBytes metadata vectors) metadata :=
  (readHeader_fields (readHeader_encodeHeader _ h.dimensions_ne)).2

/-- A field at its width is what its number is written as. -/
theorem toLeBytes_headerField {bytes : List UInt8} {a b w : ℕ} (hb : b ≤ bytes.length)
    (hw : b - a = w) : toLeBytes w (headerField bytes a b) = segment bytes a b :=
  toLeBytes_ofLeBytes (by rw [length_segment hb, hw])

/-- **The header of a part is the one that is written** for what is read from it. -/
theorem HeaderFields.take_eq {bytes : List UInt8} {metadata : EmbeddingShardMetadata}
    (h : HeaderFields bytes metadata) : bytes.take 64 = encodeHeader metadata := by
  have hlong := h.long
  have hdtypeFlags : segment bytes 14 16 = [embeddingShardDtypeF32Le, embeddingShardFlags] := by
    rw [← segment_append (by decide : 14 ≤ 15) (by decide : 15 ≤ 16), h.dtype, h.flags]
    rfl
  have hall : bytes.take 64 = segment bytes 0 64 := by rw [Tiling.segment, List.drop_zero]
  rw [encodeHeader, ← h.magic, ← h.size, ← h.version, ← h.rowCount, ← h.dimensions, ← h.reserved,
    ← h.order, ← hdtypeFlags, hall]
  rw [toLeBytes_headerField (by omega) (by decide : 12 - 8 = 4),
    toLeBytes_headerField (by omega) (by decide : 14 - 12 = 2),
    toLeBytes_headerField (by omega) (by decide : 24 - 16 = 8),
    toLeBytes_headerField (by omega) (by decide : 28 - 24 = 4),
    toLeBytes_headerField (by omega) (by decide : 32 - 28 = 4)]
  -- eight neighbouring fields make up the header
  iterate 7 rw [segment_append (by decide) (by decide)]

/-- The scalars of a vector at its width are written as they were read. -/
theorem vectorBytes_decodeVector {bytes : List UInt8} {dimensions : ℕ}
    (h : bytes.length = dimensions * 4) :
    (decodeVector bytes).length = dimensions ∧ vectorBytes (decodeVector bytes) = bytes := by
  have hvalue : ∀ chunk ∈ chunksExact 4 bytes, (F32.ofLeBytes chunk).toLeBytes = chunk :=
    fun chunk hchunk => F32.toLeBytes_ofLeBytes (length_of_mem_chunksExact hchunk)
  refine ⟨?_, ?_⟩
  · rw [decodeVector, List.length_map, length_chunksExact, h, Nat.mul_div_cancel _ (by decide)]
  · rw [vectorBytes, decodeVector, List.flatMap_map, List.flatMap_def,
      List.map_congr_left hvalue, List.map_id', flatten_chunksExact (by decide) h]

/-- **Vectors that are read are the bytes they are read from.** -/
theorem flatMap_of_readVectors {dimensions count : ℕ} {bytes : List UInt8}
    {vectors : List (List F32)} (h : readVectors dimensions count bytes = .ok vectors) :
    vectors.length = count ∧ (∀ vector ∈ vectors, IsShardVector dimensions vector) ∧
      ∃ rest, bytes = vectors.flatMap vectorBytes ++ rest := by
  induction count generalizing bytes vectors with
  | zero =>
    obtain rfl : [] = vectors := Except.ok.inj h
    exact ⟨rfl, by simp, bytes, rfl⟩
  | succ count ih =>
    simp only [readVectors, bind_eq_ok, exists_unit, throwIf_eq_ok, pure_eq_ok, not_lt] at h
    obtain ⟨hlong, hfinite, others, hothers, rfl⟩ := h
    obtain ⟨hcount, hvectors, rest, hrest⟩ := ih hothers
    have htake : (bytes.take (dimensions * 4)).length = dimensions * 4 :=
      List.length_take_of_le hlong
    obtain ⟨hdimensions, hbytes⟩ := vectorBytes_decodeVector htake
    refine ⟨by rw [List.length_cons, hcount], ?_, rest, ?_⟩
    · refine List.forall_mem_cons.mpr ⟨⟨hdimensions, fun value hvalue => ?_⟩, hvectors⟩
      by_contra hnot
      exact hfinite ⟨value, hvalue, hnot⟩
    · rw [List.flatMap_cons, hbytes, List.append_assoc, ← hrest, List.take_append_drop]

/-- **An opened part is the file of its own header and vectors.** -/
theorem exists_vectors_of_open {bytes : List UInt8} {shard : EmbeddingShard}
    (h : EmbeddingShard.open bytes = .ok shard) :
    ∃ vectors, shard.vectors = .ok vectors ∧ FillsShard shard.metadata vectors ∧
      shardBytes shard.metadata vectors = bytes := by
  obtain ⟨hsize, hlength⟩ := length_of_open h
  simp only [EmbeddingShard.open, bind_eq_ok, exists_unit, pure_eq_ok] at h
  obtain ⟨metadata, hheader, -, vectors, hvectors, rfl⟩ := h
  obtain ⟨hdimensions, hfields⟩ := readHeader_fields hheader
  have hencode := hfields.take_eq
  have hread : readVectors metadata.dimensions metadata.rowCount (bytes.drop 64) = .ok vectors :=
    hvectors
  obtain ⟨hrows, hshape, rest, hrest⟩ := flatMap_of_readVectors hread
  have hlength : bytes.length = 64 + (metadata.rowCount : ℕ) * metadata.dimensions * 4 := hlength
  have hfills : FillsShard metadata vectors := ⟨hdimensions, hrows, hshape, hsize⟩
  have hbytes : bytes = shardBytes metadata vectors ++ rest := by
    rw [shardBytes, List.append_assoc, ← hrest, ← hencode, List.take_append_drop]
  -- nothing follows the announced vectors
  have hempty : rest = [] := by
    have hcount := congrArg List.length hbytes
    rw [List.length_append, hfills.length_shardBytes, hlength] at hcount
    exact List.eq_nil_of_length_eq_zero (by omega)
  exact ⟨vectors, hvectors, hfills, by rw [hbytes, hempty, List.append_nil]⟩

/-- **Writing again what is read gives the file.** -/
theorem writeShard_of_open {bytes : List UInt8} {shard : EmbeddingShard}
    (h : EmbeddingShard.open bytes = .ok shard) :
    ∃ vectors, shard.vectors = .ok vectors ∧ writeShard shard.metadata vectors = .ok bytes := by
  obtain ⟨vectors, hvectors, hfills, hbytes⟩ := exists_vectors_of_open h
  exact ⟨vectors, hvectors, by rw [hfills.writeShard_eq, hbytes]⟩

end LivefireRag.Embedding
