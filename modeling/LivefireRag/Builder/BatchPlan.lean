import LivefireRag.Lib.JsonRecord
import LivefireRag.Builder.Basic
import LivefireRag.Pipeline.QueryVectorSet

/-!
# Query plans read by the batch

A query plan is read twice: `Pipeline.parseQueryPlan` reads it when query vectors are
sealed, and `readBatchQueryPlan` when the batch runs. Both keep to the same limits, but
the first takes each line as an untyped value and looks its fields up, and the second
has a derived reader.

The readers share a loose reading of a line (`looseRow`) and each leaves something out
of it:

* the untyped one refuses a row that is an array and a mode that is an object
  (`parsePlanRow_reading_eq_ok`), for it asks for an object and for a string;
* the derived one refuses an object that repeats a key (`readBatchQueryLine_eq_ok`),
  of which the untyped one keeps the last member.

The rules for the rows of a plan together are the same (`RowsAccepted`), so two plans
that differ in neither respect are read alike, and `readersAgree_iff` is the exact
extent of the agreement.

The text of a line is turned into JSON by a parameter, `Reading`; what it returns has
the members of objects as they are written.
-/

namespace LivefireRag.Builder

open Pipeline Fallible Machine

/-- The JSON of a line, as it is written. -/
abbrev Reading := String → Except String Json

/-- The stand-ins with the untyped reader over a reading. -/
def reads (prims : Primitives) (reading : Reading) : Primitives :=
  { prims with parseJson := fun line => Json.normalize <$> reading line }

/-! ### Requests -/

inductive Mode where
  | dense
  | lexical
  | fused
  deriving DecidableEq

def Mode.ofName : String → Option Mode
  | "dense" => some .dense
  | "lexical" => some .lexical
  | "fused" => some .fused
  | _ => none

def Mode.name : Mode → String
  | .dense => "dense"
  | .lexical => "lexical"
  | .fused => "fused"

structure BatchQueryRequest where
  queryId : String
  query : String
  mode : Mode
  topN : U64
  relations : List String
  deriving DecidableEq

def maxBatchQueryRequests : ℕ := 10000
def maxBatchQueryIdBytes : ℕ := 128
def maxBatchQueryBytes : ℕ := 8192
def maxBatchRelations : ℕ := 64
def maxBatchRelationBytes : ℕ := 256

def BatchQueryRequest.validate (request : BatchQueryRequest) : Result Unit :=
  throwIf (Text.IsBlank request.queryId ∨
      maxBatchQueryIdBytes < request.queryId.utf8ByteSize ∨ Text.IsBlank request.query ∨
      maxBatchQueryBytes < request.query.utf8ByteSize ∨ request.topN = 0 ∨ 100 < request.topN ∨
      maxBatchRelations < request.relations.length ∨
      (∃ relation ∈ request.relations,
        Text.IsBlank relation ∨ maxBatchRelationBytes < relation.utf8ByteSize) ∨
      ¬ request.relations.IsChain (· < ·))
    .invalidBatchQuery

/-- The name of a unit variant: a string, or an object whose one member has it as its
key and `null` as its value. -/
def variantName : Json → Option String
  | .string name => some name
  | .object [(name, .null)] => some name
  | _ => none

def requestFields : List String := ["query_id", "query", "mode", "top_n", "relations"]

/-- The derived reader of a request. -/
def deserializeBatchQueryRequest (value : Json) : Option BatchQueryRequest := do
  match ← value.recordFields requestFields with
  | [queryId, query, mode, topN, relations] =>
    let queryId ← queryId.asStr
    let query ← query.asStr
    let name ← variantName mode
    let mode ← Mode.ofName name
    let topN ← topN.asU64
    let elements ← relations.asArray
    let relations ← elements.mapM Json.asStr
    return ⟨queryId, query, mode, topN, relations⟩
  | _ => none

/-! ### The plan -/

structure BatchQueryPlan where
  requests : List BatchQueryRequest
  sourceSha256 : Digest
  sourceBytes : ℕ

section Definitions

variable (prims : Primitives) (reading : Reading)

def readBatchQueryLine (line : String) : Result BatchQueryRequest := do
  let value ← (reading line).mapError fun _ => .json
  let request ← orThrow (deserializeBatchQueryRequest value) .json
  request.validate
  return request

def pushBatchQueryLine (requests : List BatchQueryRequest) (line : String) :
    Result (List BatchQueryRequest) := do
  let request ← readBatchQueryLine reading line
  let requests := requests ++ [request]
  throwIf (maxBatchQueryRequests < requests.length) .invalidBatchQuery
  return requests

/-- The surfaces, and the text, result count and relations of each id. -/
structure BatchScan where
  surfaces : Finset (String × Mode)
  queryIdContract : SortedMap String (String × U64 × List String)

def scanBatchQueryRequest (scan : BatchScan) (request : BatchQueryRequest) :
    Result BatchScan := do
  throwIf ((request.queryId, request.mode) ∈ scan.surfaces) .invalidBatchQuery
  let surfaces := insert (request.queryId, request.mode) scan.surfaces
  match scan.queryIdContract.get? request.queryId with
  | some contract => do
    throwIf (contract.1 ≠ request.query ∨ contract.2.1 ≠ request.topN ∨
        contract.2.2 ≠ request.relations)
      .invalidBatchQuery
    return ⟨surfaces, scan.queryIdContract⟩
  | none =>
    return ⟨surfaces, scan.queryIdContract.insert request.queryId
      (request.query, request.topN, request.relations)⟩

def readBatchQueryPlan (bytes : List UInt8) : Result BatchQueryPlan := do
  throwIf (bytes.getLast? ≠ some 10) .invalidBatchQuery
  let text ← orThrow (Text.fromUtf8 bytes) .invalidBatchQuery
  let requests ← (Text.lines text).foldlM (pushBatchQueryLine reading) []
  throwIf (requests = []) .invalidBatchQuery
  let _ ← requests.foldlM scanBatchQueryRequest ⟨∅, .empty⟩
  return ⟨requests, digestBytes prims bytes, bytes.length⟩

end Definitions

/-- A request as the row the sealed plan has of it. -/
def BatchQueryRequest.row (request : BatchQueryRequest) : PlanRow :=
  ⟨request.queryId, request.query, request.mode.name, request.topN, request.relations⟩

@[simp] theorem Mode.ofName_eq_some {name : String} {mode : Mode} :
    Mode.ofName name = some mode ↔ name = mode.name := by
  constructor
  · intro h
    unfold Mode.ofName at h
    split at h <;> cases h <;> rfl
  · rintro rfl
    cases mode <;> rfl

theorem Mode.name_injective : Function.Injective Mode.name := by
  intro a b h
  cases a <;> cases b <;> first | rfl | exact absurd h (by decide)

theorem Mode.exists_name_iff {name : String} :
    (∃ mode : Mode, mode.name = name) ↔ name ∈ ["dense", "lexical", "fused"] := by
  simp only [List.mem_cons, List.not_mem_nil, or_false]
  constructor
  · rintro ⟨mode, rfl⟩
    cases mode <;> simp [Mode.name]
  · rintro (rfl | rfl | rfl)
    · exact ⟨.dense, rfl⟩
    · exact ⟨.lexical, rfl⟩
    · exact ⟨.fused, rfl⟩

theorem BatchQueryRequest.row_injective : Function.Injective BatchQueryRequest.row := by
  rintro ⟨a1, a2, a3, a4, a5⟩ ⟨b1, b2, b3, b4, b5⟩ h
  simp only [BatchQueryRequest.row, PlanRow.mk.injEq] at h
  obtain ⟨rfl, rfl, hmode, rfl, rfl⟩ := h
  rw [Mode.name_injective hmode]

/-! ### One line -/

/-- The rules for a row on its own. -/
structure RowValid (row : PlanRow) : Prop where
  queryId : ValidQueryId row.queryId
  query : ¬ Text.IsBlank row.query
  query_le : row.query.utf8ByteSize ≤ maxQueryBytes
  mode : row.mode ∈ ["dense", "lexical", "fused"]
  topN_ne : row.topN ≠ 0
  topN_le : row.topN ≤ 100
  relations_le : row.relations.length ≤ 64
  relation : ∀ relation ∈ row.relations, ¬ Text.IsBlank relation ∧ relation.utf8ByteSize ≤ 256
  ascending : row.relations.IsChain (· < ·)

theorem BatchQueryRequest.validate_eq_ok {request : BatchQueryRequest} {u : Unit} :
    request.validate = .ok u ↔ RowValid request.row := by
  rw [BatchQueryRequest.validate, throwIf_eq_ok]
  simp only [not_or, not_lt, not_not, not_exists, not_and]
  constructor
  · rintro ⟨h1, h2, h3, h4, h5, h6, h7, h8, h9⟩
    exact ⟨⟨h1, h2⟩, h3, h4, Mode.exists_name_iff.mp ⟨_, rfl⟩, h5, h6, h7,
      fun relation hrelation => h8 relation hrelation, h9⟩
  · rintro ⟨⟨h1, h2⟩, h3, h4, -, h5, h6, h7, h8, h9⟩
    exact ⟨h1, h2, h3, h4, h5, h6, h7, fun relation hrelation => h8 relation hrelation, h9⟩

/-- The row of the values of the fields, under a reading of the mode. -/
def rowOfFields (modeName : Json → Option String) : List Json → Option PlanRow
  | [queryId, query, mode, topN, relations] => do
    let queryId ← queryId.asStr
    let query ← query.asStr
    let mode ← modeName mode
    let topN ← topN.asU64
    let elements ← relations.asArray
    let relations ← elements.mapM Json.asStr
    return ⟨queryId, query, mode, topN, relations⟩
  | _ => none

/-- A row read loosely: of repeated keys the last member counts, the fields may stand
in an array, and the mode may be an object. -/
def LooseRow (value : Json) (row : PlanRow) : Prop :=
  ∃ fields, value.looseFields requestFields = some fields ∧
    rowOfFields variantName fields = some row ∧ RowValid row

/-- The mode of a row is written as an object. -/
def ObjectMode : Json → Prop
  | .object members => ∃ inner, Json.lastField? members "mode" = some (.object inner)
  | _ => False

theorem rowOfFields_eq_some {modeName : Json → Option String} {fields : List Json}
    {row : PlanRow} :
    rowOfFields modeName fields = some row ↔
      ∃ queryId query mode topN relations elements,
        fields = [queryId, query, mode, topN, relations] ∧
        queryId.asStr = some row.queryId ∧ query.asStr = some row.query ∧
        modeName mode = some row.mode ∧ topN.asU64 = some row.topN ∧
        relations.asArray = some elements ∧ elements.mapM Json.asStr = some row.relations := by
  match fields with
  | [queryId, query, mode, topN, relations] =>
    simp only [rowOfFields, Option.bind_eq_bind, Option.bind_eq_some_iff, Option.pure_def,
      Option.some.injEq, List.cons.injEq, and_true]
    constructor
    · rintro ⟨_, h1, _, h2, _, h3, _, h4, elements, h5, _, h6, rfl⟩
      exact ⟨_, _, _, _, _, elements, ⟨rfl, rfl, rfl, rfl, rfl⟩, h1, h2, h3, h4, h5, h6⟩
    · rintro ⟨_, _, _, _, _, elements, ⟨rfl, rfl, rfl, rfl, rfl⟩, h1, h2, h3, h4, h5, h6⟩
      exact ⟨_, h1, _, h2, _, h3, _, h4, elements, h5, _, h6, rfl⟩
  | [] | [_] | [_, _] | [_, _, _] | [_, _, _, _] | _ :: _ :: _ :: _ :: _ :: _ :: _ =>
    simp [rowOfFields]

theorem mapM_asStr_normalize (elements : List Json) :
    (elements.map Json.normalize).mapM Json.asStr = elements.mapM Json.asStr := by
  apply Option.ext
  intro texts
  rw [Json.mapM_option_eq_some, Json.mapM_option_eq_some, List.forall₂_map_left_iff]
  simp only [Json.asStr_normalize]

theorem mapM_asStr_eq_some {elements : List Json} {texts : List String} {error : PipelineError} :
    elements.mapM Json.asStr = some texts ↔
      elements.mapM (fun element => orThrow element.asStr error) = .ok texts := by
  rw [Json.mapM_option_eq_some, mapM_eq_ok]
  simp only [orThrow_eq_ok]

/-- The fields of a row are read alike from the text and from the value. -/
theorem rowOfFields_normalize {fields : List Json} {row : PlanRow} :
    rowOfFields Json.asStr (fields.map Json.normalize) = some row ↔
      rowOfFields Json.asStr fields = some row := by
  rw [rowOfFields_eq_some, rowOfFields_eq_some]
  constructor
  · rintro ⟨_, _, _, _, relations, elements, hfields, h1, h2, h3, h4, h5, h6⟩
    obtain ⟨queryId, query, mode, topN, relations, rfl⟩ : ∃ a b c d e,
        fields = [a, b, c, d, e] := by
      have hlength := congrArg List.length hfields
      rw [List.length_map] at hlength
      match fields, hlength with
      | [a, b, c, d, e], _ => exact ⟨a, b, c, d, e, rfl⟩
    simp only [List.map_cons, List.map_nil, List.cons.injEq, and_true] at hfields
    obtain ⟨rfl, rfl, rfl, rfl, rfl⟩ := hfields
    rw [Json.asArray_normalize, Option.map_eq_some_iff] at h5
    obtain ⟨written, hwritten, rfl⟩ := h5
    rw [mapM_asStr_normalize] at h6
    rw [Json.asStr_normalize] at h1 h2 h3
    rw [Json.asU64_normalize] at h4
    exact ⟨_, _, _, _, _, written, rfl, h1, h2, h3, h4, hwritten, h6⟩
  · rintro ⟨queryId, query, mode, topN, relations, elements, rfl, h1, h2, h3, h4, h5, h6⟩
    refine ⟨_, _, _, _, _, elements.map Json.normalize, rfl, ?_⟩
    rw [Json.asStr_normalize, Json.asStr_normalize, Json.asStr_normalize, Json.asU64_normalize,
      Json.asArray_normalize, h5, mapM_asStr_normalize]
    exact ⟨h1, h2, h3, h4, rfl, h6⟩

/-- A mode that is a string is what the loose reading leaves when the mode is no
object. -/
theorem asStr_eq_some_iff {mode : Json} {name : String} :
    mode.asStr = some name ↔ variantName mode = some name ∧ ¬ ∃ inner, mode = .object inner := by
  cases mode with
  | object members =>
    simp only [Json.asStr, reduceCtorEq, false_iff, not_and, not_not]
    exact fun _ => ⟨members, rfl⟩
  | _ => simp [Json.asStr, variantName]

/-- The strict reading of the mode leaves out the rows whose mode is an object. -/
theorem rowOfFields_asStr {members : List (String × Json)} {fields : List Json} {row : PlanRow}
    (h : (Json.object members).looseFields requestFields = some fields) :
    rowOfFields Json.asStr fields = some row ↔
      rowOfFields variantName fields = some row ∧ ¬ ObjectMode (.object members) := by
  have hfields : List.Forall₂ (fun name field => Json.lastField? members name = some field)
      requestFields fields := by
    rw [Json.looseFields] at h
    split at h
    · exact Json.mapM_option_eq_some.mp h
    · cases h
  have hmode : ∀ queryId query mode topN relations,
      fields = [queryId, query, mode, topN, relations] →
        Json.lastField? members "mode" = some mode := by
    rintro _ _ _ _ _ rfl
    cases hfields with
    | cons _ hfields =>
      cases hfields with
      | cons _ hfields =>
        cases hfields with
        | cons hmode _ => exact hmode
  rw [rowOfFields_eq_some, rowOfFields_eq_some]
  constructor
  · rintro ⟨queryId, query, mode, topN, relations, elements, hlist, h1, h2, h3, h4, h5, h6⟩
    obtain ⟨hname, hobject⟩ := asStr_eq_some_iff.mp h3
    refine ⟨⟨queryId, query, mode, topN, relations, elements, hlist, h1, h2, hname, h4, h5, h6⟩,
      ?_⟩
    rintro ⟨inner, hinner⟩
    rw [hmode _ _ _ _ _ hlist] at hinner
    exact hobject ⟨inner, Option.some.inj hinner⟩
  · rintro ⟨⟨queryId, query, mode, topN, relations, elements, hlist, h1, h2, h3, h4, h5, h6⟩,
      hobject⟩
    refine ⟨queryId, query, mode, topN, relations, elements, hlist, h1, h2, ?_, h4, h5, h6⟩
    refine asStr_eq_some_iff.mpr ⟨h3, ?_⟩
    rintro ⟨inner, rfl⟩
    exact hobject ⟨inner, hmode _ _ _ _ _ hlist⟩

theorem nodup_requestFields : requestFields.Nodup := by decide

/-- What is read loosely and is no array is an object. -/
theorem exists_members_of_looseFields {value : Json} {fields : List Json}
    (h : value.looseFields requestFields = some fields) (harray : ¬ value.IsArray) :
    ∃ members, value = .object members := by
  cases value with
  | object members => exact ⟨members, rfl⟩
  | array elements => exact absurd trivial harray
  | _ => cases h

section Lines

variable {prims : Primitives} {reading : Reading}

/-- **A line of the sealed plan**: the loose reading, but the row is no array and its
mode no object. -/
theorem parsePlanRow_reading_eq_ok {line : String} {row : PlanRow} :
    parsePlanRow (reads prims reading) line = .ok row ↔
      ∃ value, reading line = .ok value ∧ LooseRow value row ∧ ¬ value.IsArray ∧
        ¬ ObjectMode value := by
  -- the checks of the source are those of the fields of the value, then those of the row
  have hparse : parsePlanRow (reads prims reading) line = .ok row ↔
      ∃ value, reading line = .ok value ∧ ∃ fields, (∃ members,
        (value.normalize).asObject = some members ∧ members.length = requestFields.length ∧
        List.Forall₂ (fun name field => Json.field? members name = some field) requestFields
          fields) ∧ rowOfFields Json.asStr fields = some row ∧ RowValid row := by
    simp only [parsePlanRow, reads, bind_eq_ok, exists_unit, mapError_eq_ok, map_eq_ok,
      orThrow_eq_ok, Option.bind_eq_some_iff, throwIf_eq_ok, pure_eq_ok, not_or, not_lt, not_not,
      not_exists, not_and]
    constructor
    · rintro ⟨_, ⟨value, hvalue, rfl⟩, members, hmembers, queryId, ⟨f1, hf1, h1⟩, query,
        ⟨f2, hf2, h2⟩, mode, ⟨f3, hf3, h3⟩, topN, ⟨f4, hf4, h4⟩, elements, ⟨f5, hf5, h5⟩, relations,
        h6, ⟨r1, r2, r3, r4, r5, r6, hlength, r7, r8, r9⟩, rfl⟩
      refine ⟨value, hvalue, [f1, f2, f3, f4, f5], ⟨members, hmembers, hlength,
        .cons hf1 (.cons hf2 (.cons hf3 (.cons hf4 (.cons hf5 .nil))))⟩, ?_,
        ⟨r1, r2, r3, r4, r5, r6, r7, r8, r9⟩⟩
      refine rowOfFields_eq_some.mpr ⟨f1, f2, f3, f4, f5, elements, rfl, h1, h2, h3, h4, h5, ?_⟩
      exact mapM_asStr_eq_some.mpr h6
    · rintro ⟨value, hvalue, fields, ⟨members, hmembers, hlength, hfields⟩, hrow,
        ⟨r1, r2, r3, r4, r5, r6, r7, r8, r9⟩⟩
      obtain ⟨f1, f2, f3, f4, f5, elements, rfl, h1, h2, h3, h4, h5, h6⟩ :=
        rowOfFields_eq_some.mp hrow
      obtain ⟨hf1, hf2, hf3, hf4, hf5⟩ : Json.field? members "query_id" = some f1 ∧
          Json.field? members "query" = some f2 ∧ Json.field? members "mode" = some f3 ∧
          Json.field? members "top_n" = some f4 ∧ Json.field? members "relations" = some f5 := by
        simpa [requestFields] using hfields
      exact ⟨_, ⟨value, hvalue, rfl⟩, members, hmembers, row.queryId, ⟨f1, hf1, h1⟩, row.query,
        ⟨f2, hf2, h2⟩, row.mode, ⟨f3, hf3, h3⟩, row.topN, ⟨f4, hf4, h4⟩, elements, ⟨f5, hf5, h5⟩,
        row.relations, mapM_asStr_eq_some.mp h6, ⟨r1, r2, r3, r4, r5, r6, hlength, r7, r8, r9⟩, rfl⟩
  rw [hparse]
  refine exists_congr fun value => and_congr_right fun _ => ?_
  constructor
  · rintro ⟨_, hmembers, hrow, hvalid⟩
    obtain ⟨written, hwritten, rfl, harray⟩ :=
      (Json.normalize_fields_iff nodup_requestFields).mp hmembers
    obtain ⟨members, rfl⟩ := exists_members_of_looseFields hwritten harray
    obtain ⟨hloose, hmode⟩ := (rowOfFields_asStr hwritten).mp (rowOfFields_normalize.mp hrow)
    exact ⟨⟨written, hwritten, hloose, hvalid⟩, harray, hmode⟩
  · rintro ⟨⟨written, hwritten, hloose, hvalid⟩, harray, hmode⟩
    obtain ⟨members, rfl⟩ := exists_members_of_looseFields hwritten harray
    refine ⟨_, (Json.normalize_fields_iff nodup_requestFields).mpr
      ⟨written, hwritten, rfl, harray⟩, ?_, hvalid⟩
    exact rowOfFields_normalize.mpr ((rowOfFields_asStr hwritten).mpr ⟨hloose, hmode⟩)

/-- The derived reader: the fields as the derivation finds them, then their values. -/
theorem deserializeBatchQueryRequest_eq_some {value : Json} {request : BatchQueryRequest} :
    deserializeBatchQueryRequest value = some request ↔
      ∃ fields, value.recordFields requestFields = some fields ∧
        rowOfFields variantName fields = some request.row := by
  simp only [deserializeBatchQueryRequest, Option.bind_eq_bind, Option.bind_eq_some_iff]
  refine exists_congr fun fields => and_congr_right fun _ => ?_
  match fields with
  | [queryId, query, mode, topN, relations] =>
    simp only [rowOfFields, Option.bind_eq_bind, Option.bind_eq_some_iff, Option.pure_def,
      Option.some.injEq]
    constructor
    · rintro ⟨_, h1, _, h2, name, h3, mode, hmode, _, h4, _, h5, _, h6, rfl⟩
      rw [Mode.ofName_eq_some] at hmode
      exact ⟨_, h1, _, h2, name, h3, _, h4, _, h5, _, h6, by rw [hmode]; rfl⟩
    · rintro ⟨queryId, h1, query, h2, name, h3, topN, h4, _, h5, relations, h6, hrow⟩
      obtain ⟨requestId, requestText, mode, requestTop, requestRelations⟩ := request
      simp only [BatchQueryRequest.row, PlanRow.mk.injEq] at hrow
      obtain ⟨rfl, rfl, hname, rfl, rfl⟩ := hrow
      exact ⟨_, h1, _, h2, name, h3, mode, Mode.ofName_eq_some.mpr hname, _, h4, _, h5, _, h6,
        rfl⟩
  | [] | [_] | [_, _] | [_, _, _] | [_, _, _, _] | _ :: _ :: _ :: _ :: _ :: _ :: _ =>
    simp [rowOfFields]

/-- **A line of the batch**: the loose reading, but the row repeats no key. -/
theorem readBatchQueryLine_eq_ok {line : String} {request : BatchQueryRequest} :
    readBatchQueryLine reading line = .ok request ↔
      ∃ value, reading line = .ok value ∧ LooseRow value request.row ∧ ¬ value.RepeatsKey := by
  simp only [readBatchQueryLine, bind_eq_ok, exists_unit, mapError_eq_ok, orThrow_eq_ok,
    deserializeBatchQueryRequest_eq_some, BatchQueryRequest.validate_eq_ok, pure_eq_ok]
  constructor
  · rintro ⟨value, hvalue, _, ⟨fields, hfields, hrow⟩, hvalid, rfl⟩
    obtain ⟨hloose, hkeys⟩ := Json.recordFields_eq_some.mp hfields
    exact ⟨value, hvalue, ⟨fields, hloose, hrow, hvalid⟩, hkeys⟩
  · rintro ⟨value, hvalue, ⟨fields, hloose, hrow, hvalid⟩, hkeys⟩
    exact ⟨value, hvalue, request, ⟨fields, Json.recordFields_eq_some.mpr ⟨hloose, hkeys⟩, hrow⟩,
      hvalid, rfl⟩

end Lines

/-! ### The rows of a plan together -/

/-- What an id is bound to. -/
def content (row : PlanRow) : String × U64 × List String := (row.query, row.topN, row.relations)

/-- A row that a plan may have after another: not the same id in the same mode, and
under the same id the same content. -/
def PlanRow.Compatible (other row : PlanRow) : Prop :=
  (other.queryId, other.mode) ≠ (row.queryId, row.mode) ∧
    (other.queryId = row.queryId → content other = content row)

/-- A row that a plan takes after the given ones. -/
def Admits (rows : List PlanRow) (row : PlanRow) : Prop :=
  rows.length < maxQueryPlanRows ∧ ∀ other ∈ rows, PlanRow.Compatible other row

theorem grows_admits {rows : List PlanRow} :
    Grows Admits [] rows ↔ rows.length ≤ maxQueryPlanRows ∧ rows.Pairwise PlanRow.Compatible := by
  show Grows (fun before row =>
    before.length < maxQueryPlanRows ∧ ∀ other ∈ before, PlanRow.Compatible other row) [] rows ↔ _
  rw [grows_and, grows_length (Nat.zero_le _), grows_pairwise List.Pairwise.nil,
    List.length_nil, Nat.zero_add, List.nil_append]

/-- The rules for the rows of a plan together. -/
structure RowsAccepted (rows : List PlanRow) : Prop where
  nonempty : rows ≠ []
  length_le : rows.length ≤ maxQueryPlanRows
  compatible : rows.Pairwise PlanRow.Compatible

/-- What a table of contents by id has after the given rows. -/
def Bound (rows : List PlanRow) (table : SortedMap String (String × U64 × List String)) : Prop :=
  ∀ queryId entry, table.get? queryId = some entry ↔
    ∃ row ∈ rows, row.queryId = queryId ∧ content row = entry

theorem Bound.get?_eq_none {rows : List PlanRow}
    {table : SortedMap String (String × U64 × List String)} (h : Bound rows table)
    {queryId : String} : table.get? queryId = none ↔ ∀ row ∈ rows, row.queryId ≠ queryId := by
  rw [Option.eq_none_iff_forall_not_mem]
  constructor
  · intro hnone row hrow hid
    exact hnone (content row) ((h queryId _).mpr ⟨row, hrow, hid, rfl⟩)
  · intro hnone entry hentry
    obtain ⟨row, hrow, hid, -⟩ := (h queryId entry).mp hentry
    exact hnone row hrow hid

/-- A row under an id that is bound to its content changes nothing. -/
theorem Bound.append_of_some {rows : List PlanRow} {row : PlanRow}
    {table : SortedMap String (String × U64 × List String)} (h : Bound rows table)
    (hget : table.get? row.queryId = some (content row)) : Bound (rows ++ [row]) table := by
  intro queryId entry
  rw [h queryId entry]
  constructor
  · rintro ⟨other, hother, hid, hentry⟩
    exact ⟨other, List.mem_append_left _ hother, hid, hentry⟩
  · rintro ⟨other, hother, rfl, rfl⟩
    rcases List.mem_append.mp hother with hother | hother
    · exact ⟨other, hother, rfl, rfl⟩
    · rw [List.mem_singleton.mp hother]
      exact (h _ _).mp hget

/-- A row under a new id binds it. -/
theorem Bound.append_of_none {rows : List PlanRow} {row : PlanRow}
    {table : SortedMap String (String × U64 × List String)} (h : Bound rows table)
    (hget : table.get? row.queryId = none) :
    Bound (rows ++ [row]) (table.insert row.queryId (content row)) := by
  intro queryId entry
  have hnew := h.get?_eq_none.mp hget
  rw [SortedMap.get?_insert]
  split
  · next heq =>
    -- the id of the row, which none of the rows before it has
    rw [Option.some.injEq]
    constructor
    · rintro rfl
      exact ⟨row, List.mem_append_right _ (List.mem_singleton_self _), heq.symm, rfl⟩
    · rintro ⟨other, hother, hid, rfl⟩
      rcases List.mem_append.mp hother with hother | hother
      · exact absurd (hid.trans heq) (hnew other hother)
      · rw [List.mem_singleton.mp hother]
  · next hne =>
    rw [h queryId entry]
    constructor
    · rintro ⟨other, hother, hid, hentry⟩
      exact ⟨other, List.mem_append_left _ hother, hid, hentry⟩
    · rintro ⟨other, hother, hid, hentry⟩
      rcases List.mem_append.mp hother with hother | hother
      · exact ⟨other, hother, hid, hentry⟩
      · rw [List.mem_singleton.mp hother] at hid
        exact absurd hid.symm hne

/-- The rows before a row bind its id to its content or do not know it, exactly when
they are compatible with it as far as contents go. -/
theorem Bound.admits_iff {rows : List PlanRow} {row : PlanRow}
    {table : SortedMap String (String × U64 × List String)} (h : Bound rows table) :
    (∀ entry, table.get? row.queryId = some entry → entry = content row) ↔
      ∀ other ∈ rows, other.queryId = row.queryId → content other = content row := by
  constructor
  · intro hall other hother hid
    exact hall _ ((h _ _).mpr ⟨other, hother, hid, rfl⟩)
  · intro hall entry hentry
    obtain ⟨other, hother, hid, rfl⟩ := (h _ _).mp hentry
    exact hall other hother hid

/-! ### The sealed plan -/

section Sealed

variable {prims : Primitives}

/-- What the scan of the sealed plan has after the given rows. -/
structure Tracked (rows : List PlanRow) (scan : PlanScan) : Prop where
  requestRows : (scan.requestRows : ℕ) = rows.length
  semantic : (scan.semanticRequestRows : ℕ) = rows.countP (fun row => row.IsSemantic)
  modeSurfaces : ∀ key, key ∈ scan.modeSurfaces ↔ ∃ row ∈ rows, (row.queryId, row.mode) = key
  bound : Bound rows scan.queryById

theorem bindQuery_eq_ok {rows : List PlanRow} {scan : PlanScan} {row : PlanRow}
    (h : Bound rows scan.queryById) :
    (∃ table, scan.bindQuery row = .ok table) ↔
      ∀ other ∈ rows, other.queryId = row.queryId → content other = content row := by
  rw [← h.admits_iff, PlanScan.bindQuery]
  split
  · next existing hexisting =>
    simp only [bind_eq_ok, exists_unit, throwIf_eq_ok, not_not, pure_eq_ok, hexisting,
      Option.some.injEq, forall_eq']
    exact ⟨fun ⟨_, heq, _⟩ => heq, fun heq => ⟨_, heq, rfl⟩⟩
  · next hnone => simp [hnone]

theorem bindQuery_bound {rows : List PlanRow} {scan : PlanScan} {row : PlanRow}
    {table : SortedMap String (String × U64 × List String)} (h : Bound rows scan.queryById)
    (hrun : scan.bindQuery row = .ok table) : Bound (rows ++ [row]) table := by
  rw [PlanScan.bindQuery] at hrun
  split at hrun
  · next existing hexisting =>
    simp only [bind_eq_ok, exists_unit, throwIf_eq_ok, not_not, pure_eq_ok] at hrun
    obtain ⟨rfl, rfl⟩ := hrun
    exact h.append_of_some hexisting
  · next hnone =>
    obtain rfl := Except.ok.inj hrun
    exact h.append_of_none hnone

/-- What one line makes of the scan, whatever the counts are. -/
theorem Tracked.append {rows : List PlanRow} {scan after : PlanScan} {row : PlanRow}
    (h : Tracked rows scan) (hrequest : (after.requestRows : ℕ) = scan.requestRows + 1)
    (hsemantic : (after.semanticRequestRows : ℕ) =
      scan.semanticRequestRows + if row.IsSemantic then 1 else 0)
    (hsurfaces : after.modeSurfaces = insert (row.queryId, row.mode) scan.modeSurfaces)
    (hbound : Bound (rows ++ [row]) after.queryById) : Tracked (rows ++ [row]) after := by
  refine ⟨?_, ?_, fun key => ?_, hbound⟩
  · rw [hrequest, h.requestRows, List.length_append, List.length_singleton]
  · rw [hsemantic, h.semantic, List.countP_append, List.countP_singleton]
    simp only [decide_eq_true_eq]
  · rw [hsurfaces, Finset.mem_insert, h.modeSurfaces]
    constructor
    · rintro (rfl | ⟨other, hother, rfl⟩)
      · exact ⟨row, List.mem_append_right _ (List.mem_singleton_self _), rfl⟩
      · exact ⟨other, List.mem_append_left _ hother, rfl⟩
    · rintro ⟨other, hother, rfl⟩
      rcases List.mem_append.mp hother with hother | hother
      · exact Or.inr ⟨other, hother, rfl⟩
      · rw [List.mem_singleton.mp hother]
        exact Or.inl rfl

/-- The line is admitted when its surface is new and its id takes it. -/
theorem Tracked.admits_iff {rows : List PlanRow} {scan : PlanScan} {row : PlanRow}
    (h : Tracked rows scan) :
    (∀ other ∈ rows, PlanRow.Compatible other row) ↔
      (row.queryId, row.mode) ∉ scan.modeSurfaces ∧ ∃ table, scan.bindQuery row = .ok table := by
  rw [bindQuery_eq_ok h.bound, h.modeSurfaces]
  constructor
  · intro hall
    refine ⟨?_, fun other hother => (hall other hother).2⟩
    rintro ⟨other, hother, heq⟩
    exact (hall other hother).1 heq
  · rintro ⟨hnew, hcontent⟩ other hother
    exact ⟨fun heq => hnew ⟨other, hother, heq⟩, hcontent other hother⟩

/-- One line after the given rows: it reads as a row they admit, and the scan has that
row too. -/
theorem scanPlanLine_read {rows : List PlanRow} {scan after : PlanScan} (h : Tracked rows scan)
    {line : String} (hrun : scanPlanLine prims scan line = .ok after) :
    ∃ row, parsePlanRow prims line = .ok row ∧
      Admits rows row ∧ Tracked (rows ++ [row]) after := by
  simp only [scanPlanLine, bind_eq_ok, exists_unit, orThrow_eq_ok, checkedAdd_eq_some,
    toWidth_eq_some, throwIf_eq_ok, not_lt] at hrun
  obtain ⟨count, ⟨-, rfl⟩, requestRows, hrequest, hlimit, row, hrow, hnew, table, hbind, hrun⟩ :=
    hrun
  have hlength := h.requestRows
  refine ⟨row, hrow, ⟨by omega, h.admits_iff.mpr ⟨hnew, table, hbind⟩⟩, ?_⟩
  have hbound := bindQuery_bound h.bound hbind
  split at hrun
  · next hsemantic =>
    simp only [bind_eq_ok, orThrow_eq_ok, checkedAdd_eq_some, toWidth_eq_some, pure_eq_ok] at hrun
    obtain ⟨_, ⟨-, rfl⟩, semanticRows, hrows, rfl⟩ := hrun
    exact h.append hrequest (by rw [if_pos hsemantic]; exact hrows) rfl hbound
  · next hsemantic =>
    obtain rfl := Except.ok.inj hrun
    exact h.append hrequest (by rw [if_neg hsemantic]; rfl) rfl hbound

/-- An admitted row is read. -/
theorem scanPlanLine_total {rows : List PlanRow} {scan : PlanScan} (h : Tracked rows scan)
    {line : String} {row : PlanRow} (hrow : parsePlanRow prims line = .ok row)
    (hadmits : Admits rows row) :
    ∃ after, scanPlanLine prims scan line = .ok after ∧ Tracked (rows ++ [row]) after := by
  obtain ⟨hlimit, hcompatible⟩ := hadmits
  obtain ⟨hnew, table, hbind⟩ := h.admits_iff.mp hcompatible
  have hbound := bindQuery_bound h.bound hbind
  have hlength := h.requestRows
  have hsemanticLe : (scan.semanticRequestRows : ℕ) ≤ rows.length :=
    h.semantic.trans_le List.countP_le_length
  -- both counts stay far below their widths
  rw [maxQueryPlanRows] at hlimit
  obtain ⟨requestRows, hrequest⟩ : ∃ x : U32, (x : ℕ) = scan.requestRows + 1 :=
    ⟨⟨scan.requestRows + 1, by omega⟩, rfl⟩
  obtain ⟨semanticRows, hsemanticRows⟩ : ∃ x : U32, (x : ℕ) = scan.semanticRequestRows + 1 :=
    ⟨⟨scan.semanticRequestRows + 1, by omega⟩, rfl⟩
  by_cases hsemantic : row.IsSemantic
  · refine ⟨⟨requestRows, semanticRows, table, insert (row.queryId, row.mode) scan.modeSurfaces,
      insert row.surface scan.surfaces,
      if ∃ planned ∈ scan.uniqueSemanticQueries, planned.queryId = row.queryId then
        scan.uniqueSemanticQueries
      else scan.uniqueSemanticQueries ++ [⟨row.queryId, row.query⟩]⟩, ?_,
      h.append hrequest (by rw [if_pos hsemantic]; exact hsemanticRows) rfl hbound⟩
    simp only [scanPlanLine, bind_eq_ok, exists_unit, orThrow_eq_ok, checkedAdd_eq_some,
      toWidth_eq_some, throwIf_eq_ok, not_lt]
    refine ⟨_, ⟨by omega, rfl⟩, requestRows, hrequest, ?_, row, hrow, hnew, table, hbind, ?_⟩
    · rw [maxQueryPlanRows]
      omega
    · rw [if_pos hsemantic]
      simp only [bind_eq_ok, orThrow_eq_ok, checkedAdd_eq_some, toWidth_eq_some, pure_eq_ok]
      exact ⟨_, ⟨by omega, rfl⟩, semanticRows, hsemanticRows, rfl⟩
  · refine ⟨⟨requestRows, scan.semanticRequestRows, table,
      insert (row.queryId, row.mode) scan.modeSurfaces, insert row.surface scan.surfaces,
      scan.uniqueSemanticQueries⟩, ?_, h.append hrequest (by rw [if_neg hsemantic]; rfl) rfl hbound⟩
    simp only [scanPlanLine, bind_eq_ok, exists_unit, orThrow_eq_ok, checkedAdd_eq_some,
      toWidth_eq_some, throwIf_eq_ok, not_lt]
    refine ⟨_, ⟨by omega, rfl⟩, requestRows, hrequest, ?_, row, hrow, hnew, table, hbind, ?_⟩
    · rw [maxQueryPlanRows]
      omega
    · rw [if_neg hsemantic]
      rfl

/-- **What the sealed plan accepts**: rows that go together, one of them at least dense
or fused. -/
theorem parseQueryPlan_isOk_iff {bytes : List UInt8} :
    (∃ plan, parseQueryPlan prims bytes = .ok plan) ↔
      bytes.getLast? = some 10 ∧ ∃ text, Text.fromUtf8 bytes = some text ∧
        ∃ rows, List.Forall₂ (fun line row => parsePlanRow prims line = .ok row)
            (Text.lines text) rows ∧
          RowsAccepted rows ∧ ∃ row ∈ rows, row.IsSemantic := by
  have hempty : Tracked [] PlanScan.empty :=
    ⟨rfl, rfl, by simp [PlanScan.empty], fun _ _ => by simp [PlanScan.empty]⟩
  have hloop := fun text => @foldlM_reads _ _ _ _ (scanPlanLine prims)
    (fun line row => parsePlanRow prims line = .ok row) Admits Tracked
    (fun _ _ _ _ h hrun => scanPlanLine_read h hrun)
    (fun _ _ _ _ h hrow hadmits => scanPlanLine_total h hrow hadmits) (Text.lines text) []
    PlanScan.empty hempty
  simp only [parseQueryPlan, bind_eq_ok, exists_unit, throwIf_eq_ok, orThrow_eq_ok, not_or,
    pure_eq_ok, not_not]
  constructor
  · rintro ⟨_, hlast, text, htext, scan, hrun, ⟨hrequest, hsemantic⟩, rfl⟩
    obtain ⟨rows, hrows, hall, htracked⟩ := (hloop text).1 scan hrun
    obtain ⟨hlength, hpairs⟩ := grows_admits.mp hall
    rw [List.nil_append] at htracked
    refine ⟨hlast, text, htext, rows, hrows, ⟨?_, hlength, hpairs⟩, ?_⟩
    · rintro rfl
      exact hrequest (Fin.ext htracked.requestRows)
    · by_contra hnone
      refine hsemantic (Fin.ext (htracked.semantic.trans ?_))
      rw [Fin.val_zero, List.countP_eq_zero]
      intro row hrow
      simpa using fun h => hnone ⟨row, hrow, h⟩
  · rintro ⟨hlast, text, htext, rows, hrows, ⟨hne, hlength, hpairs⟩, row, hrow, hsemantic⟩
    obtain ⟨scan, hrun, htracked⟩ := (hloop text).2 rows hrows
      (grows_admits.mpr ⟨hlength, hpairs⟩)
    rw [List.nil_append] at htracked
    refine ⟨_, hlast, text, htext, scan, hrun, ⟨fun hzero => ?_, fun hzero => ?_⟩, rfl⟩
    · have hcount := htracked.requestRows
      rw [hzero, Fin.val_zero] at hcount
      exact hne (List.length_eq_zero_iff.mp hcount.symm)
    · have hcount := htracked.semantic
      rw [hzero, Fin.val_zero, eq_comm, List.countP_eq_zero] at hcount
      exact hcount row hrow (by simpa using hsemantic)

end Sealed

/-! ### The plan of the batch -/

section Batch

variable {prims : Primitives} {reading : Reading}

/-- What the scan of the batch has after the given rows. -/
structure BatchTracked (rows : List PlanRow) (scan : BatchScan) : Prop where
  surfaces : ∀ queryId mode, (queryId, mode) ∈ scan.surfaces ↔
    ∃ row ∈ rows, (row.queryId, row.mode) = (queryId, mode.name)
  bound : Bound rows scan.queryIdContract

theorem BatchTracked.append {rows : List PlanRow} {scan : BatchScan} {request : BatchQueryRequest}
    {table : SortedMap String (String × U64 × List String)} (h : BatchTracked rows scan)
    (hbound : Bound (rows ++ [request.row]) table) : BatchTracked (rows ++ [request.row])
      ⟨insert (request.queryId, request.mode) scan.surfaces, table⟩ := by
  refine ⟨fun queryId mode => ?_, hbound⟩
  rw [Finset.mem_insert, h.surfaces]
  constructor
  · rintro (heq | ⟨other, hother, heq⟩)
    · obtain ⟨rfl, rfl⟩ := Prod.mk.inj heq
      exact ⟨request.row, List.mem_append_right _ (List.mem_singleton_self _), rfl⟩
    · exact ⟨other, List.mem_append_left _ hother, heq⟩
  · rintro ⟨other, hother, heq⟩
    rcases List.mem_append.mp hother with hother | hother
    · exact Or.inr ⟨other, hother, heq⟩
    · rw [List.mem_singleton.mp hother] at heq
      obtain ⟨hid, hmode⟩ := Prod.mk.inj heq
      exact Or.inl (Prod.ext hid.symm (Mode.name_injective hmode.symm))

/-- One request after the given rows: it goes through exactly when they admit its row. -/
theorem scanBatchQueryRequest_spec {rows : List PlanRow} {scan : BatchScan}
    (h : BatchTracked rows scan) (request : BatchQueryRequest) :
    (∀ after, scanBatchQueryRequest scan request = .ok after →
        (∀ other ∈ rows, PlanRow.Compatible other request.row) ∧
          BatchTracked (rows ++ [request.row]) after) ∧
      ((∀ other ∈ rows, PlanRow.Compatible other request.row) →
        ∃ after, scanBatchQueryRequest scan request = .ok after) := by
  have hsurface : (request.queryId, request.mode) ∈ scan.surfaces ↔
      ∃ row ∈ rows, (row.queryId, row.mode) = (request.row.queryId, request.row.mode) :=
    h.surfaces request.queryId request.mode
  have hcompatible : (∀ other ∈ rows, PlanRow.Compatible other request.row) ↔
      (request.queryId, request.mode) ∉ scan.surfaces ∧
        ∀ entry, scan.queryIdContract.get? request.row.queryId = some entry →
          entry = content request.row := by
    rw [h.bound.admits_iff, hsurface]
    constructor
    · intro hall
      refine ⟨?_, fun other hother => (hall other hother).2⟩
      rintro ⟨other, hother, heq⟩
      exact (hall other hother).1 heq
    · rintro ⟨hnew, hcontent⟩ other hother
      exact ⟨fun heq => hnew ⟨other, hother, heq⟩, hcontent other hother⟩
  rw [hcompatible]
  simp only [scanBatchQueryRequest, bind_eq_ok, exists_unit, throwIf_eq_ok]
  split
  · next contract hcontract =>
    have hcontract' : scan.queryIdContract.get? request.row.queryId = some contract := hcontract
    simp only [bind_eq_ok, exists_unit, throwIf_eq_ok, not_or, not_not, pure_eq_ok, hcontract',
      Option.some.injEq, forall_eq']
    refine ⟨?_, ?_⟩
    · rintro after ⟨hnew, ⟨hquery, htop, hrelations⟩, rfl⟩
      have heq : contract = content request.row := Prod.ext hquery (Prod.ext htop hrelations)
      exact ⟨⟨hnew, heq⟩, h.append (h.bound.append_of_some (heq ▸ hcontract'))⟩
    · rintro ⟨hnew, rfl⟩
      exact ⟨_, hnew, ⟨rfl, rfl, rfl⟩, rfl⟩
  · next hnone =>
    have hnone' : scan.queryIdContract.get? request.row.queryId = none := hnone
    simp only [pure_eq_ok, hnone', reduceCtorEq, false_imp_iff, implies_true, and_true]
    refine ⟨?_, fun hnew => ⟨_, hnew, rfl⟩⟩
    rintro after ⟨hnew, rfl⟩
    exact ⟨hnew, h.append (h.bound.append_of_none hnone')⟩

/-- The rows of the requests go together exactly when the scan goes through. -/
theorem scanBatchQueryRequests_isOk_iff {requests : List BatchQueryRequest} :
    (∃ scan, requests.foldlM scanBatchQueryRequest ⟨∅, .empty⟩ = .ok scan) ↔
      (requests.map BatchQueryRequest.row).Pairwise PlanRow.Compatible := by
  have hempty : BatchTracked [] ⟨∅, .empty⟩ := ⟨fun _ _ => by simp, fun _ _ => by simp⟩
  have hloop := @foldlM_reads _ _ _ _ scanBatchQueryRequest
    (fun request row => row = request.row) (fun rows row => ∀ other ∈ rows, PlanRow.Compatible other row)
    BatchTracked
    (fun _ _ request after h hrun => by
      obtain ⟨hall, hnext⟩ := (scanBatchQueryRequest_spec h request).1 after hrun
      exact ⟨request.row, rfl, hall, hnext⟩)
    (fun _ _ request row h hrow hall => by
      subst hrow
      obtain ⟨after, hrun⟩ := (scanBatchQueryRequest_spec h request).2 hall
      exact ⟨after, hrun, ((scanBatchQueryRequest_spec h request).1 after hrun).2⟩)
    requests [] ⟨∅, .empty⟩ hempty
  have hrows : List.Forall₂ (fun request row => row = request.row) requests
      (requests.map BatchQueryRequest.row) :=
    List.forall₂_map_right_iff.mpr (List.forall₂_same.mpr fun _ _ => rfl)
  have hunique : ∀ rows, List.Forall₂ (fun (request : BatchQueryRequest) row => row = request.row)
      requests rows → rows = requests.map BatchQueryRequest.row := by
    intro rows h
    clear hrows hloop
    induction h with
    | nil => rfl
    | cons hhead _ ih => rw [hhead, ih, List.map_cons]
  have hgrows := @grows_pairwise _ PlanRow.Compatible [] (requests.map BatchQueryRequest.row)
    List.Pairwise.nil
  rw [List.nil_append] at hgrows
  constructor
  · rintro ⟨scan, hrun⟩
    obtain ⟨rows, hread, hall, -⟩ := hloop.1 scan hrun
    rw [hunique rows hread] at hall
    exact hgrows.mp hall
  · intro hpairs
    obtain ⟨scan, hrun, -⟩ := hloop.2 _ hrows (hgrows.mpr hpairs)
    exact ⟨scan, hrun⟩

/-- The requests of the lines, as many as a batch takes. -/
theorem pushBatchQueryLines_eq_ok {lines : List String} {requests : List BatchQueryRequest} :
    lines.foldlM (pushBatchQueryLine reading) [] = .ok requests ↔
      List.Forall₂ (fun line request => readBatchQueryLine reading line = .ok request) lines
        requests ∧ requests.length ≤ maxBatchQueryRequests := by
  have hloop := @foldlM_reads _ _ _ _ (pushBatchQueryLine reading)
    (fun line request => readBatchQueryLine reading line = .ok request)
    (fun before _ => before.length < maxBatchQueryRequests) (fun before read => read = before)
    (fun before read line after hread hrun => by
      simp only [pushBatchQueryLine, bind_eq_ok, exists_unit, throwIf_eq_ok, pure_eq_ok, not_lt,
        List.length_append, List.length_singleton] at hrun
      obtain ⟨request, hrequest, hlimit, rfl⟩ := hrun
      subst hread
      exact ⟨request, hrequest, hlimit, rfl⟩)
    (fun before read line request hread hrequest hlimit => by
      subst hread
      refine ⟨_, ?_, rfl⟩
      simp only [pushBatchQueryLine, bind_eq_ok, exists_unit, throwIf_eq_ok, pure_eq_ok, not_lt,
        List.length_append, List.length_singleton]
      exact ⟨request, hrequest, hlimit, rfl⟩)
    lines [] [] rfl
  have hgrows := fun requests : List BatchQueryRequest =>
    @grows_length _ maxBatchQueryRequests [] requests (Nat.zero_le _)
  simp only [List.length_nil, Nat.zero_add] at hgrows
  constructor
  · intro hrun
    obtain ⟨read, hread, hall, rfl⟩ := hloop.1 requests hrun
    exact ⟨hread, (hgrows _).mp hall⟩
  · rintro ⟨hread, hlength⟩
    obtain ⟨read, hrun, rfl⟩ := hloop.2 requests hread ((hgrows _).mpr hlength)
    exact hrun

/-- **What the batch accepts**: rows that go together. -/
theorem readBatchQueryPlan_eq_ok {bytes : List UInt8} {plan : BatchQueryPlan} :
    readBatchQueryPlan prims reading bytes = .ok plan ↔
      bytes.getLast? = some 10 ∧ ∃ text, Text.fromUtf8 bytes = some text ∧
        List.Forall₂ (fun line request => readBatchQueryLine reading line = .ok request)
          (Text.lines text) plan.requests ∧
        RowsAccepted (plan.requests.map BatchQueryRequest.row) ∧
        plan = ⟨plan.requests, digestBytes prims bytes, bytes.length⟩ := by
  simp only [readBatchQueryPlan, bind_eq_ok, exists_unit, throwIf_eq_ok, orThrow_eq_ok, not_not,
    pure_eq_ok, pushBatchQueryLines_eq_ok]
  constructor
  · rintro ⟨hlast, text, htext, requests, ⟨hread, hlength⟩, hne, scan, hrun, rfl⟩
    refine ⟨hlast, text, htext, hread, ⟨fun hnil => hne (List.map_eq_nil_iff.mp hnil), ?_,
      scanBatchQueryRequests_isOk_iff.mp ⟨scan, hrun⟩⟩, rfl⟩
    rw [List.length_map]
    exact hlength
  · rintro ⟨hlast, text, htext, hread, ⟨hne, hlength, hpairs⟩, hplan⟩
    obtain ⟨scan, hrun⟩ := scanBatchQueryRequests_isOk_iff.mpr hpairs
    rw [List.length_map] at hlength
    exact ⟨hlast, text, htext, plan.requests, ⟨hread, hlength⟩,
      fun hnil => hne (List.map_eq_nil_iff.mpr hnil), scan, hrun, hplan.symm⟩

end Batch

/-! ### Where the readers agree -/

section Agreement

variable (prims : Primitives) (reading : Reading)

/-- Some line of a file holds such a value. -/
def SomeLine (holds : Json → Prop) (bytes : List UInt8) : Prop :=
  ∃ text, Text.fromUtf8 bytes = some text ∧ ∃ line ∈ Text.lines text, ∃ value,
    reading line = .ok value ∧ holds value

/-- The rows of a file, read loosely, are a plan with a dense or fused row. -/
def LoosePlan (bytes : List UInt8) (rows : List PlanRow) : Prop :=
  bytes.getLast? = some 10 ∧ ∃ text, Text.fromUtf8 bytes = some text ∧
    List.Forall₂ (fun line row => ∃ value, reading line = .ok value ∧ LooseRow value row)
      (Text.lines text) rows ∧
    RowsAccepted rows ∧ ∃ row ∈ rows, row.IsSemantic

/-- A row that only the derived reader takes. -/
def DerivedOnly (value : Json) : Prop := value.IsArray ∨ ObjectMode value

/-- The two readers accept a file alike, and what they accept both of them is one
sequence of rows. -/
structure ReadersAgree (bytes : List UInt8) : Prop where
  accepts : (∃ parsed, parseQueryPlan (reads prims reading) bytes = .ok parsed) ↔
    ∃ plan, readBatchQueryPlan prims reading bytes = .ok plan ∧
      ∃ request ∈ plan.requests, request.mode ∈ [Mode.dense, Mode.fused]
  rows : ∀ parsed plan, parseQueryPlan (reads prims reading) bytes = .ok parsed →
    readBatchQueryPlan prims reading bytes = .ok plan →
      planRows (reads prims reading) bytes = .ok (plan.requests.map BatchQueryRequest.row) ∧
        PlanAccepted (plan.requests.map BatchQueryRequest.row) parsed

variable {prims reading}

theorem LooseRow.unique {value : Json} {row other : PlanRow} (h : LooseRow value row)
    (h' : LooseRow value other) : row = other := by
  obtain ⟨fields, hfields, hrow, -⟩ := h
  obtain ⟨fields', hfields', hother, -⟩ := h'
  obtain rfl := Option.some.inj (hfields.symm.trans hfields')
  exact Option.some.inj (hrow.symm.trans hother)

/-- Lines whose values are read loosely and are not of some kind. -/
theorem forall₂_not_iff {lines : List String} {rows : List PlanRow} {kind : Json → Prop} :
    List.Forall₂ (fun line row => ∃ value, reading line = .ok value ∧ LooseRow value row ∧
        ¬ kind value) lines rows ↔
      List.Forall₂ (fun line row => ∃ value, reading line = .ok value ∧ LooseRow value row) lines
          rows ∧
        ¬ ∃ line ∈ lines, ∃ value, reading line = .ok value ∧ kind value := by
  have hline : ∀ line row, (∃ value, reading line = .ok value ∧ LooseRow value row ∧
      ¬ kind value) ↔ (∀ value, reading line = .ok value → ¬ kind value) ∧
        ∃ value, reading line = .ok value ∧ LooseRow value row := by
    intro line row
    constructor
    · rintro ⟨value, hvalue, hrow, hkind⟩
      refine ⟨fun other hother => ?_, value, hvalue, hrow⟩
      rwa [← Except.ok.inj (hvalue.symm.trans hother)]
    · rintro ⟨hkind, value, hvalue, hrow⟩
      exact ⟨value, hvalue, hrow, hkind value hvalue⟩
  simp only [hline]
  rw [List.forall₂_and_left, and_comm]
  refine and_congr_right fun _ => ?_
  constructor
  · rintro hall ⟨line, hmem, value, hvalue, hkind⟩
    exact hall line hmem value hvalue hkind
  · intro hnone line hmem value hvalue hkind
    exact hnone ⟨line, hmem, value, hvalue, hkind⟩

/-- The sealed plan is the loose plan without the rows only the derived reader takes. -/
theorem parseQueryPlan_reads_isOk_iff {bytes : List UInt8} :
    (∃ parsed, parseQueryPlan (reads prims reading) bytes = .ok parsed) ↔
      (∃ rows, LoosePlan reading bytes rows) ∧ ¬ SomeLine reading DerivedOnly bytes := by
  have hline : ∀ line row, parsePlanRow (reads prims reading) line = .ok row ↔
      ∃ value, reading line = .ok value ∧ LooseRow value row ∧ ¬ DerivedOnly value := by
    intro line row
    rw [parsePlanRow_reading_eq_ok]
    simp only [DerivedOnly, not_or]
  rw [parseQueryPlan_isOk_iff]
  simp only [hline]
  constructor
  · rintro ⟨hlast, text, htext, rows, hrows, haccepted, hsemantic⟩
    obtain ⟨hloose, hnone⟩ := forall₂_not_iff.mp hrows
    refine ⟨⟨rows, hlast, text, htext, hloose, haccepted, hsemantic⟩, ?_⟩
    rintro ⟨other, hother, hline⟩
    rw [htext, Option.some.injEq] at hother
    exact hnone (hother ▸ hline)
  · rintro ⟨⟨rows, hlast, text, htext, hloose, haccepted, hsemantic⟩, hnone⟩
    refine ⟨hlast, text, htext, rows, forall₂_not_iff.mpr ⟨hloose, fun hline => ?_⟩, haccepted,
      hsemantic⟩
    exact hnone ⟨text, htext, hline⟩

theorem isSemantic_row_iff {request : BatchQueryRequest} :
    request.row.IsSemantic ↔ request.mode ∈ [Mode.dense, Mode.fused] := by
  obtain ⟨queryId, query, mode, topN, relations⟩ := request
  cases mode <;> simp [PlanRow.IsSemantic, BatchQueryRequest.row, Mode.name]

theorem RowValid.exists_request {row : PlanRow} (h : RowValid row) :
    ∃ request : BatchQueryRequest, request.row = row := by
  obtain ⟨mode, hmode⟩ := Mode.exists_name_iff.mpr h.mode
  refine ⟨⟨row.queryId, row.query, mode, row.topN, row.relations⟩, ?_⟩
  rw [BatchQueryRequest.row, hmode]

/-- Rows that are read loosely are the rows of requests. -/
theorem exists_requests {lines : List String} {rows : List PlanRow} {kind : Json → Prop}
    (h : List.Forall₂ (fun line row => ∃ value, reading line = .ok value ∧ LooseRow value row ∧
      ¬ kind value) lines rows) :
    ∃ requests : List BatchQueryRequest, requests.map BatchQueryRequest.row = rows ∧
      List.Forall₂ (fun line request => ∃ value, reading line = .ok value ∧
        LooseRow value (BatchQueryRequest.row request) ∧ ¬ kind value) lines requests := by
  induction h with
  | nil => exact ⟨[], rfl, .nil⟩
  | cons hhead _ ih =>
    obtain ⟨requests, rfl, hrequests⟩ := ih
    obtain ⟨value, hvalue, hrow, hkind⟩ := hhead
    obtain ⟨request, rfl⟩ : ∃ request : BatchQueryRequest, request.row = _ :=
      RowValid.exists_request hrow.choose_spec.2.2
    exact ⟨request :: requests, rfl, .cons ⟨value, hvalue, hrow, hkind⟩ hrequests⟩

/-- The plan of the batch, with a dense or fused row, is the loose plan without the
rows that repeat a key. -/
theorem readBatchQueryPlan_isOk_iff {bytes : List UInt8} :
    (∃ plan, readBatchQueryPlan prims reading bytes = .ok plan ∧
        ∃ request ∈ plan.requests, request.mode ∈ [Mode.dense, Mode.fused]) ↔
      (∃ rows, LoosePlan reading bytes rows) ∧ ¬ SomeLine reading Json.RepeatsKey bytes := by
  simp only [readBatchQueryPlan_eq_ok, readBatchQueryLine_eq_ok, ← isSemantic_row_iff]
  constructor
  · rintro ⟨plan, ⟨hlast, text, htext, hrequests, haccepted, -⟩, request, hrequest, hsemantic⟩
    obtain ⟨hloose, hnone⟩ := forall₂_not_iff.mp (List.forall₂_map_right_iff.mpr hrequests)
    refine ⟨⟨_, hlast, text, htext, hloose, haccepted, request.row, List.mem_map_of_mem hrequest,
      hsemantic⟩, ?_⟩
    rintro ⟨other, hother, hline⟩
    rw [htext, Option.some.injEq] at hother
    exact hnone (hother ▸ hline)
  · rintro ⟨⟨rows, hlast, text, htext, hloose, haccepted, row, hrow, hsemantic⟩, hnone⟩
    obtain ⟨requests, rfl, hrequests⟩ := exists_requests
      (forall₂_not_iff.mpr ⟨hloose, fun hline => hnone ⟨text, htext, hline⟩⟩)
    obtain ⟨request, hrequest, rfl⟩ := List.mem_map.mp hrow
    exact ⟨⟨requests, digestBytes prims bytes, bytes.length⟩, ⟨hlast, text, htext, hrequests,
      haccepted, rfl⟩, request, hrequest, hsemantic⟩

/-- What both readers accept is one sequence of rows. -/
theorem planRows_of_both {bytes : List UInt8} {parsed : ParsedQueryPlan} {plan : BatchQueryPlan}
    (hparsed : parseQueryPlan (reads prims reading) bytes = .ok parsed)
    (hplan : readBatchQueryPlan prims reading bytes = .ok plan) :
    planRows (reads prims reading) bytes = .ok (plan.requests.map BatchQueryRequest.row) ∧
      PlanAccepted (plan.requests.map BatchQueryRequest.row) parsed := by
  obtain ⟨rows, hrows, haccepted⟩ := parseQueryPlan_accepted hparsed
  suffices heq : rows = plan.requests.map BatchQueryRequest.row from heq ▸ ⟨hrows, haccepted⟩
  simp only [planRows, bind_eq_ok, orThrow_eq_ok, mapM_eq_ok, parsePlanRow_reading_eq_ok] at hrows
  simp only [readBatchQueryPlan_eq_ok, readBatchQueryLine_eq_ok] at hplan
  obtain ⟨text, htext, hrows⟩ := hrows
  obtain ⟨-, other, hother, hrequests, -⟩ := hplan
  obtain rfl := Option.some.inj (htext.symm.trans hother)
  generalize plan.requests = requests at hrequests
  generalize Text.lines text = lines at hrows hrequests
  clear haccepted
  -- line by line, both rows are the loose row of the value
  induction hrows generalizing requests with
  | nil =>
    cases hrequests
    rfl
  | cons hhead _ ih =>
    cases hrequests with
    | cons hrequest hrequests =>
      obtain ⟨value, hvalue, hrow, -⟩ := hhead
      obtain ⟨value', hvalue', hrow', -⟩ := hrequest
      obtain rfl := Except.ok.inj (hvalue.symm.trans hvalue')
      rw [List.map_cons, ← ih _ hrequests, hrow.unique hrow']

/-- **Where the readers agree**: on every file that even the loose reading does not take
for a plan with a dense or fused row, and on the others exactly when some row repeats a
key just in case some row is an array or has an object for its mode. -/
theorem readersAgree_iff {bytes : List UInt8} :
    ReadersAgree prims reading bytes ↔
      ((∃ rows, LoosePlan reading bytes rows) →
        (SomeLine reading Json.RepeatsKey bytes ↔ SomeLine reading DerivedOnly bytes)) := by
  constructor
  · intro h hloose
    have haccepts := h.accepts
    rw [parseQueryPlan_reads_isOk_iff, readBatchQueryPlan_isOk_iff, and_iff_right hloose,
      and_iff_right hloose] at haccepts
    exact (not_iff_not.mp haccepts).symm
  · intro h
    refine ⟨?_, fun parsed plan => planRows_of_both⟩
    rw [parseQueryPlan_reads_isOk_iff, readBatchQueryPlan_isOk_iff]
    refine and_congr_right fun hloose => not_congr (h hloose).symm

/-- Plain files are read alike. -/
theorem readersAgree_of_plain {bytes : List UInt8}
    (hkeys : ¬ SomeLine reading Json.RepeatsKey bytes)
    (hshape : ¬ SomeLine reading DerivedOnly bytes) : ReadersAgree prims reading bytes :=
  readersAgree_iff.mpr fun _ => iff_of_false hkeys hshape

end Agreement

/-! ### Two files that are read differently -/

/-- The reading of a file of one line. -/
def oneLine (line : String) (value : Json) : Reading := fun text =>
  if text = line then .ok value else .error "another line"

/-- A row under two ids. -/
def repeatedText : String :=
  "\x7b\"query_id\":\"p\",\"query_id\":\"q\",\"query\":\"text\",\"mode\":\"dense\"," ++
    "\"top_n\":5,\"relations\":[]\x7d"

def repeatedValue : Json := .object
  [("query_id", .string "p"), ("query_id", .string "q"), ("query", .string "text"),
    ("mode", .string "dense"), ("top_n", .number (.posInt 5)), ("relations", .array [])]

/-- A row without its keys. -/
def listedText : String := "[\"q\",\"text\",\"dense\",5,[]]"

def listedValue : Json := .array
  [.string "q", .string "text", .string "dense", .number (.posInt 5), .array []]

/-- The row that both of them read as. -/
def denseRow : PlanRow := ⟨"q", "text", "dense", 5, []⟩

theorem denseRow_valid : RowValid denseRow :=
  ⟨by decide, by decide, by decide, by decide, by decide, by decide, by decide, by decide,
    by decide⟩

theorem looseRow_repeatedValue : LooseRow repeatedValue denseRow := by
  refine ⟨[.string "q", .string "text", .string "dense", .number (.posInt 5), .array []], ?_, rfl,
    denseRow_valid⟩
  rw [repeatedValue, Json.looseFields, if_pos (by decide)]
  rfl

theorem looseRow_listedValue : LooseRow listedValue denseRow :=
  ⟨_, rfl, rfl, denseRow_valid⟩

/-- A file of one line that reads as the row is a plan. -/
theorem loosePlan_oneLine {line : String} {value : Json}
    (hlines : Text.lines (line ++ "\n") = [line]) (hrow : LooseRow value denseRow) :
    LoosePlan (oneLine line value) (Text.utf8 (line ++ "\n")) [denseRow] := by
  refine ⟨?_, _, Text.fromUtf8_utf8 _, ?_, ⟨List.cons_ne_nil _ _, by decide,
    List.pairwise_singleton _ _⟩, denseRow, List.mem_singleton_self _, by decide⟩
  · rw [Text.utf8_append, List.getLast?_append_of_ne_nil _ (by decide)]
    rfl
  · rw [hlines]
    exact .cons ⟨value, if_pos rfl, hrow⟩ .nil

theorem someLine_oneLine {line : String} {value : Json} {holds : Json → Prop}
    (hlines : Text.lines (line ++ "\n") = [line]) :
    SomeLine (oneLine line value) holds (Text.utf8 (line ++ "\n")) ↔ holds value := by
  constructor
  · rintro ⟨text, htext, other, hother, found, hfound, hholds⟩
    rw [Text.fromUtf8_utf8, Option.some.injEq] at htext
    rw [← htext, hlines, List.mem_singleton] at hother
    rw [oneLine, if_pos hother, Except.ok.injEq] at hfound
    rwa [hfound]
  · intro hholds
    exact ⟨_, Text.fromUtf8_utf8 _, line, by rw [hlines]; exact List.mem_singleton_self _, value,
      if_pos rfl, hholds⟩

/-- The file of a row under two ids can be sealed and is refused by the batch, and the
file of a row without keys is taken by the batch and cannot be sealed. -/
theorem repeated_and_listed_disagree :
    ((∃ parsed, parseQueryPlan (reads samplePrimitives (oneLine repeatedText repeatedValue))
        (Text.utf8 (repeatedText ++ "\n")) = .ok parsed) ∧
      ¬ ∃ plan, readBatchQueryPlan samplePrimitives (oneLine repeatedText repeatedValue)
          (Text.utf8 (repeatedText ++ "\n")) = .ok plan ∧
        ∃ request ∈ plan.requests, request.mode ∈ [Mode.dense, Mode.fused]) ∧
    (¬ ∃ parsed, parseQueryPlan (reads samplePrimitives (oneLine listedText listedValue))
        (Text.utf8 (listedText ++ "\n")) = .ok parsed) ∧
      ∃ plan, readBatchQueryPlan samplePrimitives (oneLine listedText listedValue)
          (Text.utf8 (listedText ++ "\n")) = .ok plan ∧
        ∃ request ∈ plan.requests, request.mode ∈ [Mode.dense, Mode.fused] := by
  have hrepeated : Text.lines (repeatedText ++ "\n") = [repeatedText] := by decide +kernel
  have hlisted : Text.lines (listedText ++ "\n") = [listedText] := by decide +kernel
  have hkeys : repeatedValue.RepeatsKey := by
    show ¬ (_ : List String).Nodup
    decide
  have hshape : ¬ DerivedOnly repeatedValue := by
    rintro (harray | ⟨inner, hinner⟩)
    · exact harray
    · cases hinner
  rw [parseQueryPlan_reads_isOk_iff, readBatchQueryPlan_isOk_iff, parseQueryPlan_reads_isOk_iff,
    readBatchQueryPlan_isOk_iff, someLine_oneLine hrepeated, someLine_oneLine hrepeated,
    someLine_oneLine hlisted, someLine_oneLine hlisted]
  exact ⟨⟨⟨⟨_, loosePlan_oneLine hrepeated looseRow_repeatedValue⟩, hshape⟩,
    fun h => h.2 hkeys⟩, fun h => h.2 (Or.inl trivial),
    ⟨_, loosePlan_oneLine hlisted looseRow_listedValue⟩, fun h => h⟩

end LivefireRag.Builder
