import LivefireRag.Embedding.ShardRoundTrip
import LivefireRag.Index.DigestText

/-!
# Vectors from consecutive shards

The reader of vectors of the index (`vectors_from_embedding_shards`): it looks at the
announced order of the shards first and opens each file when its first row is wanted. It
reads the header by itself, apart from the code that wrote it.

Rows that are split into shards, none of them empty, and written one shard a file come
back as the same rows under consecutive ordinals (`items_split`). A shard without rows is
a good file that the reader refuses (`vectorsFromEmbeddingShards_empty`).
-/

namespace LivefireRag.Index

open Machine Fallible LivefireRag.Embedding Tiling Bytes

/-! ### The reader -/

structure OrderedVectorShard where
  path : String
  firstVectorOrdinal : U64
  vectorCount : U64
  dimensions : U32
  orderSha256 : String
  deriving DecidableEq

/-- A row under an ordinal. -/
def orderedRow (ordinal : ℕ) (values : List F32) : OrderedVector :=
  ⟨⟨ordinal % 2 ^ 64, Nat.mod_lt _ (Nat.two_pow_pos 64)⟩, values⟩

/-- A shard whose header was checked: the bytes that are still to be read. -/
structure OpenVectorShard where
  reader : List UInt8
  remaining : ℕ
  dimensions : ℕ
  deriving DecidableEq

structure EmbeddingVectorShards where
  shards : List OrderedVectorShard
  current : Option OpenVectorShard
  nextOrdinal : ℕ
  deriving DecidableEq

/-- One shard against those before it: the ordinal that is expected, and the dimensions. -/
def checkVectorShard (scan : ℕ × Option U32) (shard : OrderedVectorShard) :
    Result (ℕ × Option U32) := do
  throwIf (shard.vectorCount = 0 ∨ (shard.firstVectorOrdinal : ℕ) ≠ scan.1)
    (.invalid "embedding vector shard order")
  let refused ← isErr (decodeSha256 shard.orderSha256)
  throwIf (refused ∨ ∃ dimensions ∈ scan.2, dimensions ≠ shard.dimensions)
    (.invalid "embedding vector shard order")
  let expectedOrdinal ← orThrow (checkedAdd 64 scan.1 shard.vectorCount)
    (.invalid "embedding vector shard order")
  return (expectedOrdinal, some shard.dimensions)

def vectorsFromEmbeddingShards (shards : List OrderedVectorShard) :
    Result EmbeddingVectorShards := do
  let _ ← shards.foldlM checkVectorShard (0, none)
  return ⟨shards, none, 0⟩

section Files

variable (files : String → Option (List UInt8))

def openEmbeddingVectorShard (shard : OrderedVectorShard) : Result OpenVectorShard := do
  let content ← orThrow (files shard.path) .io
  throwIf (content.length < 64) .io
  throwIf (segment content 0 8 ≠ embeddingShardMagic ∨ Embedding.headerField content 8 12 ≠ 64 ∨
      Embedding.headerField content 12 14 ≠ 1 ∨ segment content 14 15 ≠ [1] ∨
      segment content 15 16 ≠ [0] ∨
      Embedding.headerField content 16 24 ≠ (shard.vectorCount : ℕ) ∨
      Embedding.headerField content 24 28 ≠ (shard.dimensions : ℕ) ∨
      segment content 28 32 ≠ [0, 0, 0, 0])
    (.invalid "embedding vector shard header")
  let order ← decodeSha256 shard.orderSha256
  throwIf (segment content 32 64 ≠ order) (.invalid "embedding vector shard header")
  let payload ← orThrow
    ((checkedMul 64 shard.vectorCount shard.dimensions).bind (checkedMul 64 · 4))
    (.invalid "embedding vector shard bytes")
  let expectedBytes ← orThrow (checkedAdd 64 64 payload)
    (.invalid "embedding vector shard bytes")
  throwIf (content.length ≠ expectedBytes) (.invalid "embedding vector shard bytes")
  return ⟨content.drop 64, shard.vectorCount, shard.dimensions⟩

/-- The next scalars, and the bytes after them. -/
def readScalars : ℕ → List UInt8 → Result (List F32 × List UInt8)
  | 0, bytes => .ok ([], bytes)
  | count + 1, bytes => do
    throwIf (bytes.length < 4) .io
    let (values, rest) ← readScalars count (bytes.drop 4)
    return (F32.ofLeBytes (bytes.take 4) :: values, rest)

/-- The next row of a shard, and the shard after it. -/
def readEmbeddingVectorRow (shard : OpenVectorShard) : Result (List F32 × OpenVectorShard) := do
  let (values, rest) ← readScalars shard.dimensions shard.reader
  return (values, { shard with reader := rest, remaining := shard.remaining - 1 })

/-- A row of the current shard. A row that cannot be read leaves the shard as it is. -/
def currentRow (ordinal : ℕ) (shards : List OrderedVectorShard) :
    Option OpenVectorShard → Option (Result OrderedVector × EmbeddingVectorShards)
  | none => none
  | some current =>
    if current.remaining = 0 then none
    else match readEmbeddingVectorRow current with
      | .ok (values, rest) =>
        some (.ok (orderedRow ordinal values), ⟨shards, some rest, ordinal + 1⟩)
      | .error e => some (.error e, ⟨shards, some current, ordinal⟩)

/-- The next item: a row of the current shard, or else of the next one that opens. -/
def nextVector (ordinal : ℕ) : List OrderedVectorShard → Option OpenVectorShard →
    Option (Result OrderedVector × EmbeddingVectorShards)
  | [], current => currentRow ordinal [] current
  | shard :: shards, current =>
    match currentRow ordinal (shard :: shards) current with
    | some item => some item
    | none =>
      match openEmbeddingVectorShard files shard with
      | .ok opened => nextVector ordinal shards (some opened)
      | .error e => some (.error e, ⟨shards, none, ordinal⟩)

def EmbeddingVectorShards.next (reader : EmbeddingVectorShards) :
    Option (Result OrderedVector × EmbeddingVectorShards) :=
  nextVector files reader.nextOrdinal reader.shards reader.current

/-- The first items of the reader; fewer when it ends before. -/
def EmbeddingVectorShards.items : ℕ → EmbeddingVectorShards → List (Result OrderedVector)
  | 0, _ => []
  | count + 1, reader =>
    match reader.next files with
    | none => []
    | some (item, reader) => item :: EmbeddingVectorShards.items count reader

end Files

/-! ### Rows split into shards -/

/-- The rows under the ordinals from `first` on. -/
def orderedRows (first : ℕ) (rows : List (List F32)) : List OrderedVector :=
  (rows.zipIdx first).map fun row => orderedRow row.2 row.1

section Files

variable (files : String → Option (List UInt8)) (dimensions : U32)

/-- A shard that announces some rows and was written with them. -/
structure WrittenShard (first : ℕ) (rows : List (List F32)) (shard : OrderedVectorShard) :
    Prop where
  ordinal : (shard.firstVectorOrdinal : ℕ) = first
  count : (shard.vectorCount : ℕ) = rows.length
  width : shard.dimensions = dimensions
  written : ∃ order bytes, decodeSha256 shard.orderSha256 = .ok (orderBytes order) ∧
    writeShard ⟨shard.vectorCount, dimensions, order⟩ rows = .ok bytes ∧
    files shard.path = some bytes

/-- Pieces of rows, written one after another from an ordinal on. -/
inductive SplitInto : ℕ → List (List (List F32)) → List OrderedVectorShard → Prop where
  | nil (first : ℕ) : SplitInto first [] []
  | cons {first : ℕ} {piece : List (List F32)} {pieces : List (List (List F32))}
      {shard : OrderedVectorShard} {shards : List OrderedVectorShard} :
      WrittenShard files dimensions first piece shard →
      SplitInto (first + piece.length) pieces shards →
      SplitInto first (piece :: pieces) (shard :: shards)

end Files

section Reading

variable {files : String → Option (List UInt8)} {dimensions : U32}

/-! ### The order of the shards -/

theorem checkVectorShard_written {first : ℕ} {piece : List (List F32)}
    {shard : OrderedVectorShard} {seen : Option U32}
    (h : WrittenShard files dimensions first piece shard) (hrows : piece ≠ [])
    (hseen : ∀ width ∈ seen, width = dimensions) (hbound : first + piece.length < 2 ^ 64) :
    checkVectorShard (first, seen) shard = .ok (first + piece.length, some dimensions) := by
  obtain ⟨order, -, horder, -, -⟩ := h.written
  have hcount : ¬ (shard.vectorCount = 0 ∨ (shard.firstVectorOrdinal : ℕ) ≠ first) := by
    rintro (hzero | hne)
    · have hlength := h.count
      rw [hzero] at hlength
      exact hrows (List.eq_nil_of_length_eq_zero hlength.symm)
    · exact hne h.ordinal
  have hwidth : ¬ (false = true ∨ ∃ width ∈ seen, width ≠ shard.dimensions) := by
    rintro (hfalse | ⟨width, hmem, hne⟩)
    · cases hfalse
    · exact hne (by rw [hseen width hmem, h.width])
  have hnext : checkedAdd 64 first shard.vectorCount = some (first + piece.length) :=
    checkedAdd_eq_some.mpr ⟨by rw [h.count]; exact hbound, by rw [h.count]⟩
  rw [checkVectorShard, throwIf_bind_of_not hcount, horder, isErr, ok_bind,
    throwIf_bind_of_not hwidth, hnext, h.width]
  rfl

theorem foldlM_checkVectorShard {first : ℕ} {pieces : List (List (List F32))}
    {shards : List OrderedVectorShard} {seen : Option U32}
    (h : SplitInto files dimensions first pieces shards) (hrows : ∀ piece ∈ pieces, piece ≠ [])
    (hseen : ∀ width ∈ seen, width = dimensions)
    (hbound : first + pieces.flatten.length < 2 ^ 64) :
    ∃ scan, shards.foldlM checkVectorShard (first, seen) = .ok scan := by
  induction h generalizing seen with
  | nil first => exact ⟨_, rfl⟩
  | cons hshard _ ih =>
    obtain ⟨hpiece, hpieces⟩ := List.forall_mem_cons.mp hrows
    rw [List.flatten_cons, List.length_append] at hbound
    rw [List.foldlM_cons, checkVectorShard_written hshard hpiece hseen (by omega)]
    exact ih hpieces (fun width hmem => (Option.some.inj hmem).symm) (by omega)

/-! ### One shard -/

/-- The index opens a file with the announced header and the length it implies. -/
theorem openEmbeddingVectorShard_of_fields {shard : OrderedVectorShard} {content : List UInt8}
    {order : Pipeline.Digest} (hfile : files shard.path = some content)
    (horder : decodeSha256 shard.orderSha256 = .ok (orderBytes order))
    (hfields : HeaderFields content ⟨shard.vectorCount, shard.dimensions, order⟩)
    (hbound : 64 + (shard.vectorCount : ℕ) * shard.dimensions * 4 < 2 ^ 64)
    (hlength : content.length = 64 + (shard.vectorCount : ℕ) * shard.dimensions * 4) :
    openEmbeddingVectorShard files shard =
      .ok ⟨content.drop 64, shard.vectorCount, shard.dimensions⟩ := by
  have hlong : ¬ content.length < 64 := not_lt.mpr hfields.long
  have hreserved : segment content 28 32 = [0, 0, 0, 0] := by
    rw [← toLeBytes_headerField (by omega) (by decide : 32 - 28 = 4), hfields.reserved]
    rfl
  have hheader : ¬ (segment content 0 8 ≠ embeddingShardMagic ∨
      Embedding.headerField content 8 12 ≠ 64 ∨ Embedding.headerField content 12 14 ≠ 1 ∨
      segment content 14 15 ≠ [1] ∨ segment content 15 16 ≠ [0] ∨
      Embedding.headerField content 16 24 ≠ (shard.vectorCount : ℕ) ∨
      Embedding.headerField content 24 28 ≠ (shard.dimensions : ℕ) ∨
      segment content 28 32 ≠ [0, 0, 0, 0]) := by
    simp only [not_or, not_not]
    exact ⟨hfields.magic, hfields.size, hfields.version, hfields.dtype, hfields.flags,
      hfields.rowCount, hfields.dimensions, hreserved⟩
  have hpayload : (checkedMul 64 shard.vectorCount shard.dimensions).bind (checkedMul 64 · 4) =
      some ((shard.vectorCount : ℕ) * shard.dimensions * 4) :=
    Option.bind_eq_some_iff.mpr ⟨_, checkedMul_eq_some.mpr ⟨by omega, rfl⟩,
      checkedMul_eq_some.mpr ⟨by omega, rfl⟩⟩
  have hexpected : checkedAdd 64 64 ((shard.vectorCount : ℕ) * shard.dimensions * 4) =
      some (64 + (shard.vectorCount : ℕ) * shard.dimensions * 4) :=
    checkedAdd_eq_some.mpr ⟨hbound, rfl⟩
  have hsame : ¬ segment content 32 64 ≠ orderBytes order := not_not.mpr hfields.order
  rw [openEmbeddingVectorShard, hfile, orThrow, ok_bind, throwIf_bind_of_not hlong,
    throwIf_bind_of_not hheader, horder, ok_bind, throwIf_bind_of_not hsame, hpayload, orThrow,
    ok_bind, hexpected, orThrow, ok_bind, throwIf_bind_of_not (not_not.mpr hlength)]
  rfl

/-- **A part that was written is opened by the index**, with its rows still to be read. -/
theorem openEmbeddingVectorShard_written {first : ℕ} {piece : List (List F32)}
    {shard : OrderedVectorShard} (h : WrittenShard files dimensions first piece shard)
    (hbound : 64 + piece.length * (dimensions : ℕ) * 4 < 2 ^ 64) :
    openEmbeddingVectorShard files shard =
      .ok ⟨piece.flatMap vectorBytes, piece.length, dimensions⟩ := by
  obtain ⟨order, bytes, horder, hwrite, hfile⟩ := h.written
  obtain ⟨hdimensions, hrows, hshape, rfl⟩ := writeShard_eq_ok.mp hwrite
  have hfills : FillsShard ⟨shard.vectorCount, dimensions, order⟩ piece := by
    refine ⟨hdimensions, hrows, hshape, ?_⟩
    rw [← h.count] at hbound
    exact hbound
  have hpayload : (shardBytes ⟨shard.vectorCount, dimensions, order⟩ piece).drop 64 =
      piece.flatMap vectorBytes := List.drop_left' (length_encodeHeader _)
  have hlength := hfills.length_shardBytes
  have hsize := hfills.size_lt
  have hfields := hfills.fields
  have hwidth := h.width
  subst hwidth
  rw [openEmbeddingVectorShard_of_fields hfile horder hfields hsize hlength, hpayload, h.count]

/-- The bytes of a digest are read back from its text. -/
theorem decodeSha256_digest (digest : Pipeline.Digest) :
    decodeSha256 digest.val = .ok (orderBytes digest) := by
  obtain ⟨hlength, hhex⟩ := digest.property
  have hdigit : ∀ c ∈ digest.val.toList, Hex.IsDigit c ∧ c.toLower = c := by
    intro c hc
    obtain ⟨n, hn, rfl⟩ := Hex.IsLowerDigit.exists_digitChar (hhex c hc)
    have hall : ∀ n < 16, Hex.IsDigit (Nat.digitChar n) ∧
        (Nat.digitChar n).toLower = Nat.digitChar n := by decide
    exact hall n hn
  have hdigest : IsHexDigest digest.val := ⟨hlength, fun c hc => (hdigit c hc).1⟩
  obtain ⟨bytes, hdecode, hencode⟩ := hdigest.decodeSha256_eq
  rw [List.map_congr_left fun c hc => (hdigit c hc).2, List.map_id'] at hencode
  rw [hdecode, orderBytes, ← hencode, Hex.decode_encode, Option.getD_some]

/-- Scalars are read back as they were written. -/
theorem readScalars_vectorBytes (vector : List F32) (rest : List UInt8) :
    readScalars vector.length (vectorBytes vector ++ rest) = .ok (vector, rest) := by
  induction vector with
  | nil => rfl
  | cons value vector ih =>
    have hlength : value.toLeBytes.length = 4 := length_toLeBytes 4 value
    have hbytes : vectorBytes (value :: vector) ++ rest =
        value.toLeBytes ++ (vectorBytes vector ++ rest) := by
      rw [vectorBytes, List.flatMap_cons, List.append_assoc]
      rfl
    have hlong : ¬ (value.toLeBytes ++ (vectorBytes vector ++ rest)).length < 4 := by
      rw [List.length_append, hlength]
      omega
    rw [hbytes, List.length_cons, readScalars, throwIf_bind_of_not hlong,
      List.drop_left' hlength, List.take_left' hlength, ih, F32.ofLeBytes_toLeBytes]
    rfl

/-! ### The rows that are left -/

/-- The current shard holds some rows, or there is none when there are no rows. -/
def HoldsRows (dimensions : U32) (rows : List (List F32)) : Option OpenVectorShard → Prop
  | none => rows = []
  | some current => current = ⟨rows.flatMap vectorBytes, rows.length, dimensions⟩ ∧
      ∀ row ∈ rows, row.length = dimensions

/-- A current shard with rows gives the first of them. -/
theorem currentRow_cons {ordinal : ℕ} {shards : List OrderedVectorShard}
    {current : Option OpenVectorShard} {row : List F32} {rows : List (List F32)}
    (h : HoldsRows dimensions (row :: rows) current) :
    ∃ rest, HoldsRows dimensions rows (some rest) ∧
      currentRow ordinal shards current =
        some (.ok (orderedRow ordinal row), ⟨shards, some rest, ordinal + 1⟩) := by
  cases current with
  | none => cases h
  | some current =>
    obtain ⟨rfl, hwidth⟩ := h
    obtain ⟨hrow, hrows⟩ := List.forall_mem_cons.mp hwidth
    refine ⟨⟨rows.flatMap vectorBytes, rows.length, dimensions⟩, ⟨rfl, hrows⟩, ?_⟩
    have hread : readEmbeddingVectorRow
        ⟨(row :: rows).flatMap vectorBytes, (row :: rows).length, dimensions⟩ =
          .ok (row, ⟨rows.flatMap vectorBytes, rows.length, dimensions⟩) := by
      rw [readEmbeddingVectorRow, List.flatMap_cons]
      dsimp only
      rw [← hrow, readScalars_vectorBytes]
      rfl
    rw [currentRow, if_neg (by simp), hread]

theorem currentRow_nil {ordinal : ℕ} {shards : List OrderedVectorShard}
    {current : Option OpenVectorShard} (h : HoldsRows dimensions [] current) :
    currentRow ordinal shards current = none := by
  cases current with
  | none => rfl
  | some current =>
    obtain ⟨rfl, -⟩ := h
    rfl

/-- What is left to the reader: rows of the current shard, and pieces in shards. -/
def Remaining (files : String → Option (List UInt8)) (dimensions : U32)
    (reader : EmbeddingVectorShards) (rows : List (List F32)) : Prop :=
  ∃ held pieces, HoldsRows dimensions held reader.current ∧
    SplitInto files dimensions (reader.nextOrdinal + held.length) pieces reader.shards ∧
    (∀ piece ∈ pieces, piece ≠ [] ∧ 64 + piece.length * (dimensions : ℕ) * 4 < 2 ^ 64 ∧
      ∀ row ∈ piece, row.length = dimensions) ∧
    rows = held ++ pieces.flatten

/-- A reader with nothing left ends. -/
theorem next_of_remaining_nil {reader : EmbeddingVectorShards}
    (h : Remaining files dimensions reader []) : reader.next files = none := by
  obtain ⟨shards, current, ordinal⟩ := reader
  obtain ⟨held, pieces, hheld, hsplit, hpieces, hrows⟩ := h
  obtain ⟨rfl, hflatten⟩ := List.append_eq_nil_iff.mp hrows.symm
  cases hsplit with
  | nil _ => exact currentRow_nil hheld
  | cons hshard hrest =>
    -- a piece without rows is none of the pieces
    obtain ⟨hne, -⟩ := (List.forall_mem_cons.mp hpieces).1
    exact absurd (List.append_eq_nil_iff.mp hflatten).1 hne

/-- **The next item is the next row**, and the rest is left. -/
theorem next_of_remaining_cons {reader : EmbeddingVectorShards} {row : List F32}
    {rows : List (List F32)} (h : Remaining files dimensions reader (row :: rows)) :
    ∃ reader', reader.next files = some (.ok (orderedRow reader.nextOrdinal row), reader') ∧
      reader'.nextOrdinal = reader.nextOrdinal + 1 ∧ Remaining files dimensions reader' rows := by
  obtain ⟨shards, current, ordinal⟩ := reader
  obtain ⟨held, pieces, hheld, hsplit, hpieces, hrows⟩ := h
  cases held with
  | cons first held =>
    obtain ⟨rfl, rfl⟩ := List.cons.inj hrows
    obtain ⟨rest, hrest, hrow⟩ := @currentRow_cons _ ordinal shards _ _ _ hheld
    refine ⟨⟨shards, some rest, ordinal + 1⟩, ?_, rfl, ⟨held, pieces, hrest, ?_, hpieces, rfl⟩⟩
    · cases shards with
      | nil => exact hrow
      | cons shard shards => rw [EmbeddingVectorShards.next, nextVector, hrow]
    · rw [List.length_cons, ← Nat.add_assoc, Nat.add_right_comm] at hsplit
      exact hsplit
  | nil =>
    cases hsplit with
    | nil _ => cases hrows
    | @cons _ piece pieces shard shards hshard hsplit =>
      obtain ⟨⟨hne, hbound, hwidth⟩, hothers⟩ := List.forall_mem_cons.mp hpieces
      obtain ⟨first, piece, rfl⟩ := List.exists_cons_of_ne_nil hne
      obtain ⟨rfl, rfl⟩ := List.cons.inj hrows
      have hopen := openEmbeddingVectorShard_written hshard hbound
      obtain ⟨rest, hrest, hrow⟩ := @currentRow_cons dimensions ordinal shards
        (some ⟨_, _, _⟩) row piece ⟨rfl, hwidth⟩
      refine ⟨⟨shards, some rest, ordinal + 1⟩, ?_, rfl, ⟨piece, pieces, hrest, ?_, hothers, rfl⟩⟩
      · rw [EmbeddingVectorShards.next, nextVector, currentRow_nil hheld, hopen]
        cases shards with
        | nil => exact hrow
        | cons shard shards =>
          dsimp only
          rw [nextVector, hrow]
      · rw [List.length_nil, Nat.add_zero, List.length_cons, ← Nat.add_assoc,
          Nat.add_right_comm] at hsplit
        exact hsplit

/-- **The items of a reader are the rows that are left**, under consecutive ordinals. -/
theorem items_of_remaining (count : ℕ) {reader : EmbeddingVectorShards}
    {rows : List (List F32)} (h : Remaining files dimensions reader rows) :
    reader.items files count = ((orderedRows reader.nextOrdinal rows).take count).map .ok := by
  induction count generalizing reader rows with
  | zero => rfl
  | succ count ih =>
    cases rows with
    | nil => rw [EmbeddingVectorShards.items, next_of_remaining_nil h]; rfl
    | cons row rows =>
      obtain ⟨reader', hnext, hordinal, hrest⟩ := next_of_remaining_cons h
      rw [EmbeddingVectorShards.items, hnext]
      dsimp only
      rw [ih hrest, hordinal]
      rfl

end Reading

/-! ### The round trip -/

theorem length_le_length_flatten {α : Type} {pieces : List (List α)} {piece : List α}
    (h : piece ∈ pieces) : piece.length ≤ pieces.flatten.length := by
  rw [List.length_flatten]
  exact List.le_sum_of_mem (List.mem_map.mpr ⟨piece, h, rfl⟩)

/-- **Rows split into shards are read back in order.** -/
theorem items_split {files : String → Option (List UInt8)} {metadata : EmbeddingShardMetadata}
    {rows : List (List F32)} (hfills : FillsShard metadata rows)
    {pieces : List (List (List F32))} {shards : List OrderedVectorShard}
    (hrows : pieces.flatten = rows) (hne : ∀ piece ∈ pieces, piece ≠ [])
    (hsplit : SplitInto files metadata.dimensions 0 pieces shards) :
    ∃ reader, vectorsFromEmbeddingShards shards = .ok reader ∧
      ∀ count, reader.items files count = ((orderedRows 0 rows).take count).map .ok := by
  have hsize := hfills.size_lt
  rw [← hfills.rows] at hsize
  have hpos : 0 < (metadata.dimensions : ℕ) :=
    Nat.pos_of_ne_zero fun hzero => hfills.dimensions_ne (Fin.ext hzero)
  have hlength : rows.length ≤ rows.length * (metadata.dimensions : ℕ) :=
    Nat.le_mul_of_pos_right _ hpos
  obtain ⟨scan, hscan⟩ := @foldlM_checkVectorShard _ _ _ _ _ none hsplit hne nofun
    (by rw [hrows]; omega)
  refine ⟨⟨shards, none, 0⟩, by rw [vectorsFromEmbeddingShards, hscan]; rfl, fun count => ?_⟩
  refine @items_of_remaining files metadata.dimensions count _ _ ⟨[], pieces, rfl, hsplit,
    fun piece hpiece => ⟨hne piece hpiece, ?_, fun row hrow => ?_⟩, by rw [hrows, List.nil_append]⟩
  · have hle := length_le_length_flatten hpiece
    rw [hrows] at hle
    have hmul := Nat.mul_le_mul_right (metadata.dimensions : ℕ) hle
    omega
  · have hmem : row ∈ rows := hrows ▸ List.mem_flatten_of_mem hpiece hrow
    exact (hfills.vectors row hmem).1

/-- **Shards round-trip exactly.** What the writer leaves is opened with the same vectors,
what is opened is what the writer leaves for its header and vectors, and rows split into
shards with rows are read back by the index in order. -/
theorem embedding_shards_round_trip {metadata : EmbeddingShardMetadata} {rows : List (List F32)}
    (hfills : FillsShard metadata rows) :
    (∃ bytes shard, writeShard metadata rows = .ok bytes ∧ EmbeddingShard.open bytes = .ok shard ∧
      shard.metadata = metadata ∧ shard.vectors = .ok rows) ∧
    (∀ bytes shard, EmbeddingShard.open bytes = .ok shard →
      ∃ vectors, shard.vectors = .ok vectors ∧ writeShard shard.metadata vectors = .ok bytes) ∧
    ∀ files pieces shards, pieces.flatten = rows → (∀ piece ∈ pieces, piece ≠ []) →
      SplitInto files metadata.dimensions 0 pieces shards →
      ∃ reader, vectorsFromEmbeddingShards shards = .ok reader ∧
        ∀ count, reader.items files count = ((orderedRows 0 rows).take count).map .ok :=
  ⟨⟨_, _, hfills.writeShard_eq, hfills.open_shardBytes, rfl, hfills.vectors_shardBytes⟩,
    fun _ _ hopen => writeShard_of_open hopen,
    fun _ _ _ hrows hne hsplit => items_split hfills hrows hne hsplit⟩

/-! ### Two rows, and a shard without rows -/

def sampleOrder : Pipeline.Digest := orderOf (List.replicate 32 0) (by decide)

/-- The vector `[1.0]` and the vector `[0.0]`. -/
def sampleVectors : List (List F32) := [[0x3F800000], [0]]

def sampleShardMetadata (rowCount : U64) : EmbeddingShardMetadata := ⟨rowCount, 1, sampleOrder⟩

/-- A file for each piece, and one without rows. -/
def sampleShardFiles (path : String) : Option (List UInt8) :=
  if path = "none" then some (shardBytes (sampleShardMetadata 0) [])
  else if path = "first" then some (shardBytes (sampleShardMetadata 1) [[0x3F800000]])
  else if path = "second" then some (shardBytes (sampleShardMetadata 1) [[0]])
  else none

def sampleShard (path : String) (first rows : U64) : OrderedVectorShard :=
  ⟨path, first, rows, 1, sampleOrder.val⟩

theorem isShardVector_singleton {value : F32} (h : value.IsFinite) : IsShardVector 1 [value] :=
  ⟨rfl, List.forall_mem_singleton.mpr h⟩

theorem one_ne_zero_u32 : (1 : U32) ≠ 0 := by decide +kernel

theorem isFinite_samples : F32.IsFinite 0x3F800000 ∧ F32.IsFinite 0 := by decide +kernel

theorem sampleVectors_fill : FillsShard (sampleShardMetadata 2) sampleVectors where
  dimensions_ne := by decide
  rows := rfl
  vectors := List.forall_mem_cons.mpr ⟨isShardVector_singleton isFinite_samples.1,
    List.forall_mem_singleton.mpr (isShardVector_singleton isFinite_samples.2)⟩
  size_lt := by decide +kernel

theorem writtenShard_sample {path : String} {first : ℕ} {rows : List (List F32)}
    {ordinal count : U64} (hordinal : (ordinal : ℕ) = first) (hcount : rows.length = count)
    (hrows : ∀ row ∈ rows, IsShardVector 1 row)
    (hfile : sampleShardFiles path = some (shardBytes (sampleShardMetadata count) rows)) :
    WrittenShard sampleShardFiles 1 first rows (sampleShard path ordinal count) where
  ordinal := hordinal
  count := hcount.symm
  width := rfl
  written := ⟨sampleOrder, _, decodeSha256_digest sampleOrder,
    writeShard_eq_ok.mpr ⟨one_ne_zero_u32, hcount, hrows, rfl⟩, hfile⟩

theorem splitInto_sample (ordinal : U64) (first : ℕ) (hfirst : (ordinal : ℕ) = first)
    (hsecond : ((ordinal + 1 : U64) : ℕ) = first + 1) :
    SplitInto sampleShardFiles 1 first [[[0x3F800000]], [[0]]]
      [sampleShard "first" ordinal 1, sampleShard "second" (ordinal + 1) 1] := by
  have hone := isShardVector_singleton isFinite_samples.1
  have hzero := isShardVector_singleton isFinite_samples.2
  exact .cons (writtenShard_sample hfirst rfl (List.forall_mem_singleton.mpr hone) rfl)
    (.cons (writtenShard_sample hsecond rfl (List.forall_mem_singleton.mpr hzero) rfl) (.nil _))

/-- Two rows, one shard each. -/
theorem two_rows_round_trip :
    ∃ reader, vectorsFromEmbeddingShards [sampleShard "first" 0 1, sampleShard "second" 1 1] =
        .ok reader ∧
      reader.items sampleShardFiles 3 =
        [.ok (orderedRow 0 [0x3F800000]), .ok (orderedRow 1 [0])] := by
  obtain ⟨-, -, hsplit⟩ := embedding_shards_round_trip sampleVectors_fill
  obtain ⟨reader, hreader, hitems⟩ := hsplit sampleShardFiles [[[0x3F800000]], [[0]]]
    [sampleShard "first" 0 1, sampleShard "second" 1 1] rfl (by decide)
    (splitInto_sample 0 0 rfl rfl)
  exact ⟨reader, hreader, hitems 3⟩

/-- The same rows after a shard without rows, which is a good file: the reader of the
index refuses the split. -/
theorem split_with_empty_shard_refused :
    FillsShard (sampleShardMetadata 2) sampleVectors ∧
      ([[], [[0x3F800000]], [[0]]] : List (List (List F32))).flatten = sampleVectors ∧
      SplitInto sampleShardFiles 1 0 [[], [[0x3F800000]], [[0]]]
        [sampleShard "none" 0 0, sampleShard "first" 0 1, sampleShard "second" 1 1] ∧
      vectorsFromEmbeddingShards
          [sampleShard "none" 0 0, sampleShard "first" 0 1, sampleShard "second" 1 1] =
        .error (.invalid "embedding vector shard order") :=
  ⟨sampleVectors_fill, rfl,
    .cons (writtenShard_sample rfl rfl nofun rfl) (splitInto_sample 0 0 rfl rfl),
    rfl⟩

end LivefireRag.Index
