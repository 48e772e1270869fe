import LivefireRag.Lib.Framing
import LivefireRag.Pipeline.PlanTiling

/-!
# What the order digests identify

The order digests hash the fields of the rows, each followed by a zero byte. Ids
may contain that byte: the check of a row asks for a non-empty id and no more. So
the hashed bytes determine the pieces that the zero bytes cut the ids into, but
not which pieces belong to one id, and rows are confused exactly when they
regroup the same pieces (`order_identifies_iff`). Rows whose ids contain no zero
byte are identified (`order_identifies_of_notMem`).
-/

namespace LivefireRag.Pipeline

open Fallible Machine Framing

/-! ### The hashed bytes -/

/-- The bytes the document order digest hashes. -/
def documentOrderBytes (ids : List String) : List UInt8 := ids.flatMap fun id => Text.utf8 id ++ [0]

/-- The bytes the embedding input order digest hashes. -/
def embeddingInputOrderBytes (rows : List PreparedDocumentRow) : List UInt8 :=
  Text.utf8 "livefire.rag.embedding-input-order/1" ++ [0] ++
    rows.flatMap fun row =>
      [row.documentId, row.documentSha256.val, row.semanticTextSha256.val].flatMap
        fun field => Text.utf8 field ++ [0]

theorem documentOrderDigest_eq (prims : Primitives) (ids : List String) :
    documentOrderDigest prims ids = prims.sha256 (documentOrderBytes ids) := rfl

theorem embeddingInputOrderDigest_eq (prims : Primitives) (rows : List PreparedDocumentRow) :
    embeddingInputOrderDigest prims rows = prims.sha256 (embeddingInputOrderBytes rows) := rfl

/-- What the embedding input order is meant to identify of a row. -/
def PreparedDocumentRow.orderKey (row : PreparedDocumentRow) : String × Digest × Digest :=
  (row.documentId, row.documentSha256, row.semanticTextSha256)

/-! ### Pieces -/

/-- The bytes of an id between its zero bytes. -/
def idPieces (id : String) : List (List UInt8) := (Text.utf8 id).splitOn 0

/-- The pieces of a row: those of its id, and the two digests. -/
def PreparedDocumentRow.pieces (row : PreparedDocumentRow) : List (List UInt8) :=
  idPieces row.documentId ++
    [Text.utf8 row.documentSha256.val, Text.utf8 row.semanticTextSha256.val]

/-- No digest contains the zero byte. -/
theorem zero_notMem_digest (digest : Digest) : (0 : UInt8) ∉ Text.utf8 digest.val := by
  rw [Text.utf8_eq_flatMap]
  intro hmem
  obtain ⟨c, hc, hbyte⟩ := List.mem_flatMap.mp hmem
  -- a hexadecimal digit is one byte, that of its code
  have hcode : 0 < c.toNat ∧ c.toNat ≤ 127 := by
    have hrange := toNat_of_isHexDigit (digest.property.2 c hc)
    omega
  rw [String.utf8EncodeChar_eq_singleton (Text.utf8Size_eq_one hcode.2),
    List.mem_singleton] at hbyte
  have hvalue := congrArg UInt8.toNat hbyte
  rw [UInt32.toNat_toUInt8] at hvalue
  have hmod : c.val.toNat % 2 ^ 8 = c.toNat := Nat.mod_eq_of_lt (by
    have hlt := hcode.2
    exact lt_of_le_of_lt hlt (by decide))
  rw [hmod] at hvalue
  exact absurd hvalue hcode.1.ne

/-- The fields of the rows that are hashed. -/
def orderFields (rows : List PreparedDocumentRow) : List (List UInt8) :=
  rows.flatMap fun row => [Text.utf8 row.documentId, Text.utf8 row.documentSha256.val,
    Text.utf8 row.semanticTextSha256.val]

theorem embeddingInputOrderBytes_eq (rows : List PreparedDocumentRow) :
    embeddingInputOrderBytes rows =
      Text.utf8 "livefire.rag.embedding-input-order/1" ++ [0] ++
        terminated 0 (orderFields rows) := by
  rw [embeddingInputOrderBytes, terminated, orderFields, List.flatMap_assoc]
  rfl

theorem documentOrderBytes_eq (ids : List String) :
    documentOrderBytes ids = terminated 0 (ids.map Text.utf8) := by
  rw [documentOrderBytes, terminated, List.flatMap_map]

/-- The pieces of the hashed fields are the pieces of the rows. -/
theorem flatMap_splitOn_orderFields (rows : List PreparedDocumentRow) :
    (orderFields rows).flatMap (·.splitOn 0) = rows.flatMap PreparedDocumentRow.pieces := by
  rw [orderFields, List.flatMap_assoc]
  refine List.flatMap_congr fun row _ => ?_
  simp only [List.flatMap_cons, List.flatMap_nil, List.append_nil, PreparedDocumentRow.pieces,
    List.splitOn_eq_singleton (zero_notMem_digest _)]
  rfl

/-- The hashed fields of rows determine the keys of these, three by three. -/
theorem orderKeys_eq_of_orderFields_eq {rows rows' : List PreparedDocumentRow}
    (h : orderFields rows = orderFields rows') :
    rows.map PreparedDocumentRow.orderKey = rows'.map PreparedDocumentRow.orderKey := by
  induction rows generalizing rows' with
  | nil =>
    cases rows' with
    | nil => rfl
    | cons row rows' => exact absurd h (by simp [orderFields])
  | cons row rows ih =>
    cases rows' with
    | nil => exact absurd h (by simp [orderFields])
    | cons row' rows' =>
      simp only [orderFields, List.flatMap_cons, List.cons_append, List.nil_append,
        List.cons.injEq] at h
      obtain ⟨hid, hdocument, htext, hrest⟩ := h
      have hkey : row.orderKey = row'.orderKey := by
        rw [PreparedDocumentRow.orderKey, Text.utf8_injective hid,
          Subtype.ext (Text.utf8_injective hdocument), Subtype.ext (Text.utf8_injective htext)]
        rfl
      rw [List.map_cons, List.map_cons, hkey, ih hrest]

/-- The terminators of the hashed fields are those of the ids. -/
theorem count_orderFields {rows rows' : List PreparedDocumentRow}
    (h : rows.map (fun row => (idPieces row.documentId).length) =
      rows'.map fun row => (idPieces row.documentId).length) :
    (orderFields rows).map (List.count 0) = (orderFields rows').map (List.count 0) := by
  have hcounts : ∀ rows : List PreparedDocumentRow, (orderFields rows).map (List.count 0) =
      (rows.map fun row => (idPieces row.documentId).length).flatMap fun n => [n - 1, 0, 0] := by
    intro rows
    rw [orderFields, List.map_flatMap, List.flatMap_map]
    refine List.flatMap_congr fun row _ => ?_
    rw [idPieces, length_splitOn, Nat.add_sub_cancel]
    simp only [List.map_cons, List.map_nil, List.count_eq_zero_of_not_mem (zero_notMem_digest _)]
  rw [hcounts, hcounts, h]

/-! ### Identification -/

/-- The document order identifies the ids. -/
def DocumentOrderIdentifies (ids ids' : List String) : Prop :=
  documentOrderBytes ids = documentOrderBytes ids' → ids = ids'

/-- The embedding input order identifies the rows. -/
def EmbeddingInputOrderIdentifies (rows rows' : List PreparedDocumentRow) : Prop :=
  embeddingInputOrderBytes rows = embeddingInputOrderBytes rows' →
    rows.map PreparedDocumentRow.orderKey = rows'.map PreparedDocumentRow.orderKey

/-- The lists do not regroup the same pieces: if all pieces are the same, each
element has as many of them as the one at the same position. -/
def NotRegrouped {α : Type} (pieces : α → List (List UInt8)) (xs ys : List α) : Prop :=
  xs.flatMap pieces = ys.flatMap pieces →
    xs.map (fun x => (pieces x).length) = ys.map fun y => (pieces y).length

theorem documentOrderIdentifies_iff {ids ids' : List String} :
    DocumentOrderIdentifies ids ids' ↔ NotRegrouped idPieces ids ids' := by
  have hbytes : documentOrderBytes ids = documentOrderBytes ids' ↔
      ids.flatMap idPieces = ids'.flatMap idPieces := by
    rw [documentOrderBytes_eq, documentOrderBytes_eq, terminated_eq_iff, List.flatMap_map,
      List.flatMap_map]
    rfl
  rw [DocumentOrderIdentifies, NotRegrouped, hbytes]
  refine imp_congr_right fun hpieces => ⟨fun heq => by rw [heq], fun hlengths => ?_⟩
  have hcounts : (ids.map Text.utf8).map (List.count 0) =
      (ids'.map Text.utf8).map (List.count 0) := by
    have hlength : ∀ ids : List String, (ids.map Text.utf8).map (List.count 0) =
        (ids.map fun id => (idPieces id).length).map (· - 1) := by
      intro ids
      rw [List.map_map, List.map_map]
      refine List.map_congr_left fun id _ => ?_
      simp only [Function.comp_apply, idPieces, length_splitOn, Nat.add_sub_cancel]
    rw [hlength, hlength, hlengths]
  have hfields := terminated_inj_of_count hcounts
    (by rw [← documentOrderBytes_eq, ← documentOrderBytes_eq]; exact hbytes.mpr hpieces)
  exact List.map_injective_iff.mpr Text.utf8_injective hfields

theorem embeddingInputOrderIdentifies_iff {rows rows' : List PreparedDocumentRow} :
    EmbeddingInputOrderIdentifies rows rows' ↔
      NotRegrouped PreparedDocumentRow.pieces rows rows' := by
  have hbytes : embeddingInputOrderBytes rows = embeddingInputOrderBytes rows' ↔
      rows.flatMap PreparedDocumentRow.pieces = rows'.flatMap PreparedDocumentRow.pieces := by
    rw [embeddingInputOrderBytes_eq, embeddingInputOrderBytes_eq, List.append_cancel_left_eq,
      terminated_eq_iff, flatMap_splitOn_orderFields, flatMap_splitOn_orderFields]
  have hlength : ∀ row : PreparedDocumentRow,
      row.pieces.length = (idPieces row.documentId).length + 2 := fun row => by
    rw [PreparedDocumentRow.pieces, List.length_append]
    rfl
  rw [EmbeddingInputOrderIdentifies, NotRegrouped, hbytes]
  refine imp_congr_right fun hpieces => ⟨fun hkeys => ?_, fun hlengths => ?_⟩
  · have hids := congrArg (List.map fun key : String × Digest × Digest =>
      (idPieces key.1).length + 2) hkeys
    rw [List.map_map, List.map_map] at hids
    simp only [hlength]
    exact hids
  · refine orderKeys_eq_of_orderFields_eq (terminated_inj_of_count (count_orderFields ?_) ?_)
    · have hids := congrArg (List.map (· - 2)) hlengths
      rw [List.map_map, List.map_map] at hids
      simpa only [Function.comp_def, hlength, Nat.add_sub_cancel] using hids
    · rw [terminated_eq_iff, flatMap_splitOn_orderFields, flatMap_splitOn_orderFields]
      exact hpieces

/-- **What the order digests identify.** The hashed bytes determine the ids with
their digests, and the ids alone, exactly for lists that do not regroup the
pieces into which the zero bytes cut the ids. -/
theorem order_identifies_iff (rows rows' : List PreparedDocumentRow) (ids ids' : List String) :
    (EmbeddingInputOrderIdentifies rows rows' ∧ DocumentOrderIdentifies ids ids') ↔
      NotRegrouped PreparedDocumentRow.pieces rows rows' ∧ NotRegrouped idPieces ids ids' :=
  and_congr embeddingInputOrderIdentifies_iff documentOrderIdentifies_iff

/-- An id without the zero byte is one piece. -/
theorem idPieces_of_notMem {id : String} (h : (0 : UInt8) ∉ Text.utf8 id) :
    idPieces id = [Text.utf8 id] :=
  List.splitOn_eq_singleton h

/-- Ids without the zero byte are identified: all of them, or all of an embedding
input order. -/
theorem order_identifies_of_notMem {rows rows' : List PreparedDocumentRow}
    (h : ∀ row ∈ rows, (0 : UInt8) ∉ Text.utf8 row.documentId)
    (h' : ∀ row ∈ rows', (0 : UInt8) ∉ Text.utf8 row.documentId) :
    EmbeddingInputOrderIdentifies rows rows' ∧
      DocumentOrderIdentifies (rows.map (·.documentId)) (rows'.map (·.documentId)) := by
  have hrow : ∀ row : PreparedDocumentRow, (0 : UInt8) ∉ Text.utf8 row.documentId →
      row.pieces.length = 3 := fun row hrow => by
    rw [PreparedDocumentRow.pieces, idPieces_of_notMem hrow]
    rfl
  refine (order_identifies_iff _ _ _ _).mpr ⟨fun hpieces => ?_, fun hpieces => ?_⟩
  · -- every row has three pieces, so the lists have as many rows
    have hcount : ∀ rows : List PreparedDocumentRow,
        (∀ row ∈ rows, (0 : UInt8) ∉ Text.utf8 row.documentId) →
        rows.map (fun row => row.pieces.length) = List.replicate rows.length 3 := fun rows hrows =>
      List.eq_replicate_iff.mpr ⟨List.length_map _, fun n hn => by
        obtain ⟨row, hmem, rfl⟩ := List.mem_map.mp hn
        exact hrow row (hrows row hmem)⟩
    have hlengths := congrArg List.length hpieces
    rw [List.length_flatMap, List.length_flatMap, hcount rows h, hcount rows' h',
      List.sum_replicate_nat, List.sum_replicate_nat] at hlengths
    rw [hcount rows h, hcount rows' h', Nat.eq_of_mul_eq_mul_right (by decide) hlengths]
  · have hcount : ∀ rows : List PreparedDocumentRow,
        (∀ row ∈ rows, (0 : UInt8) ∉ Text.utf8 row.documentId) →
        (rows.map (·.documentId)).map (fun id => (idPieces id).length) =
          List.replicate rows.length 1 := fun rows hrows => by
      rw [List.map_map]
      refine List.eq_replicate_iff.mpr ⟨List.length_map _, fun n hn => ?_⟩
      obtain ⟨row, hmem, rfl⟩ := List.mem_map.mp hn
      rw [Function.comp_apply, idPieces_of_notMem (hrows row hmem)]
      rfl
    have hlengths := congrArg List.length hpieces
    rw [List.length_flatMap, List.length_flatMap, hcount rows h, hcount rows' h',
      List.sum_replicate_nat, List.sum_replicate_nat, mul_one, mul_one]
      at hlengths
    rw [hcount rows h, hcount rows' h', hlengths]

/-! ### Rows that are confused -/

/-- Rows that pass the check of a row and have strictly ascending ids. -/
def AcceptedRows (prims : Primitives) (rows : List PreparedDocumentRow) : Prop :=
  (∀ row ∈ rows, row.validate prims = .ok ()) ∧ (rows.map (·.documentId)).Pairwise (· < ·)

/-- A row with the given id and one text. -/
def sampleRow (id : String) : PreparedDocumentRow where
  documentOrdinal := 0
  documentId := id
  documentSha256 := hexDigest 1
  semanticTextSha256 := digestBytes samplePrimitives (Text.utf8 "text")
  semanticText := "text"
  documentKind := .activity
  primaryRelation := "events"
  facetsJson := ""
  relationsJson := ""
  occurrenceCount := 1

theorem sampleRow_validate {id : String} (hid : id ≠ "") :
    (sampleRow id).validate samplePrimitives = .ok () := by
  have hjson : validateCanonicalJson samplePrimitives "" = .ok () := by decide
  have hone : ((1 : U64) : ℕ) ≤ maxSafeJsonInteger ∧ ((1 : U64) : ℕ) ≠ 0 := by decide
  have htexts : "text" ≠ "" ∧ "events" ≠ "" := by decide
  exact PreparedDocumentRow.validate_eq_ok.mpr
    ⟨Nat.zero_le _, hone.1, hid, htexts.1, htexts.2, hjson, hjson, rfl, hone.2⟩

/-- Rows whose ids start with the given characters. -/
def sampleRows (ids : List (Char × String)) : List PreparedDocumentRow :=
  ids.map fun id => sampleRow (String.singleton id.1 ++ id.2)

/-- A text that starts with a smaller character is smaller. -/
theorem append_lt_of_lt {c d : Char} (h : c < d) (s t : String) :
    String.singleton c ++ s < String.singleton d ++ t := by
  rw [String.lt_iff_toList_lt, String.toList_append, String.toList_append,
    String.toList_singleton, String.toList_singleton]
  exact List.cons_lt_cons_iff.mpr (Or.inl h)

theorem sampleRows_accepted {ids : List (Char × String)}
    (h : (ids.map Prod.fst).Pairwise (· < ·)) : AcceptedRows samplePrimitives (sampleRows ids) := by
  refine ⟨fun row hrow => ?_, ?_⟩
  · obtain ⟨id, -, rfl⟩ := List.mem_map.mp hrow
    refine sampleRow_validate fun hempty => ?_
    have hchars := congrArg String.toList hempty
    rw [String.toList_append, String.toList_singleton] at hchars
    exact List.cons_ne_nil _ _ hchars
  · rw [sampleRows, List.map_map, List.pairwise_map]
    exact (List.pairwise_map.mp h).imp fun hlt => append_lt_of_lt hlt _ _

/-- What the embedding input order puts between two ids. -/
def betweenIds : String :=
  "\x00" ++ (hexDigest 1).val ++ "\x00" ++
    (digestBytes samplePrimitives (Text.utf8 "text")).val ++ "\x00"

def regroupedLeft : List PreparedDocumentRow :=
  sampleRows [('a', betweenIds ++ "b"), ('c', ""), ('d', "")]

def regroupedRight : List PreparedDocumentRow :=
  sampleRows [('a', ""), ('b', ""), ('c', betweenIds ++ "d")]

/-- Both lists are hashed as the ids one after the other with their digests. -/
theorem embeddingInputOrderBytes_regrouped :
    embeddingInputOrderBytes regroupedLeft = embeddingInputOrderBytes regroupedRight := by
  simp only [embeddingInputOrderBytes, regroupedLeft, regroupedRight, sampleRows, sampleRow,
    betweenIds, List.map_cons, List.map_nil, List.flatMap_cons, List.flatMap_nil,
    Text.utf8_append, List.append_assoc, List.append_nil]
  rfl

/-- Ids that are cut into the same pieces. -/
def mergedIds : List PreparedDocumentRow := sampleRows [('a', "\x00b"), ('c', "")]

def dividedIds : List PreparedDocumentRow := sampleRows [('a', ""), ('b', "\x00c")]

/-- The digests confuse rows of different ids that pass every check, and so does
the digest of the ids alone. -/
theorem regrouped_confused :
    (AcceptedRows samplePrimitives regroupedLeft ∧ AcceptedRows samplePrimitives regroupedRight ∧
      regroupedLeft.length = regroupedRight.length ∧
      ¬ EmbeddingInputOrderIdentifies regroupedLeft regroupedRight) ∧
    AcceptedRows samplePrimitives mergedIds ∧ AcceptedRows samplePrimitives dividedIds ∧
      mergedIds.length = dividedIds.length ∧
      ¬ DocumentOrderIdentifies (mergedIds.map (·.documentId))
        (dividedIds.map (·.documentId)) := by
  refine ⟨⟨sampleRows_accepted (by decide), sampleRows_accepted (by decide), rfl,
    fun hidentifies => ?_⟩, sampleRows_accepted (by decide), sampleRows_accepted (by decide), rfl,
    fun hidentifies => ?_⟩
  · -- the second rows are "c" and "b"
    have hkeys := hidentifies embeddingInputOrderBytes_regrouped
    have hsecond := congrArg (fun keys => (keys.map Prod.fst)[1]?) hkeys
    exact absurd (show some ("c" ++ "") = some ("b" ++ "") from hsecond) (by decide)
  · have hbytes : documentOrderBytes (mergedIds.map (·.documentId)) =
        documentOrderBytes (dividedIds.map (·.documentId)) := by decide
    have hsecond := congrArg (fun ids => ids[1]?) (hidentifies hbytes)
    exact absurd (show some ("c" ++ "") = some ("b" ++ "\x00c") from hsecond) (by decide)

end LivefireRag.Pipeline
