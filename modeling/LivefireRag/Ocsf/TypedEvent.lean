import Mathlib.Data.List.Pairwise
import Mathlib.Data.List.Sort
import LivefireRag.Lib.Fallible
import LivefireRag.Lib.JsonPath
import LivefireRag.Lib.Text

/-!
# Typed events

A row of schema version 2 spreads an event over columns named by dotted paths. The
reader puts it together again: column after column, then the objects that were empty.
An insertion fails where something stands already or where its path runs through a
value that is not an object.

What an insertion finds depends on what was inserted before. `insertAll_eq_ok` says
when a whole order of insertions succeeds: every later entry has to fit under each
earlier one (`FitsAfter`). An object-valued column accepts another column below it
when it comes first, and rejects it when it comes second, so the rows whose reading is
canonical are the ones in which no path lies below another, or in which two entries
fit in no order (`typedEvent_canonical_iff`).
-/

namespace LivefireRag.Ocsf

open Fallible Json

inductive OcsfError where
  | invalidParquet (relation reason : String)
  | typedJson (path : String) (row bytes : ℕ) (source : String)
  | json (source : String)
  deriving DecidableEq

abbrev Result := Except OcsfError

/-! ### Columns -/

inductive DataType where
  | utf8
  | int64
  | float64
  | boolean
  | list (item : DataType)
  | other

/-- One value of an array. -/
inductive Cell where
  | null
  | utf8 (text : String)
  | int64 (value : ℤ)
  | float64 (bits : Machine.U64)
  | boolean (value : Bool)
  | list (items : List Cell)

def Cell.isNull : Cell → Bool
  | .null => true
  | _ => false

def residualRoots : List String :=
  ["event.authorization_grants", "event.header", "event.semantics", "event.state_transitions",
    "event.workload_endpoints"]

def residualPrefixes : List String :=
  ["event.ocsf.", "event.databucket.", "event.resource_details.", "event.process.",
    "event.src_endpoint.", "event.dst_endpoint."]

def residualNames : List String :=
  ["agent_list", "ancestry", "anomaly_analyses", "answers", "attacks", "auth_factors",
    "authorizations", "cis_controls", "containers", "data", "data_classifications",
    "discovery_details", "edges", "endpoint_connections", "enrichments",
    "environment_variables", "evidences", "extension_list", "extensions", "files",
    "fingerprints", "gpu_info_list", "groups", "hashes", "http_cookies", "http_headers",
    "ja4_fingerprint_list", "kb_article_list", "kill_chain", "loggers", "malware", "manager",
    "metrics", "network_interfaces", "nodes", "observables", "osint", "packet_list",
    "parameters", "parent_process", "policies", "programmatic_credentials", "proxy_endpoint",
    "related_analytics", "related_events", "resources", "sans", "scim_group_schema",
    "scim_user_schema", "signatures", "software_components", "tags", "tickets",
    "tls_extension_list", "traits", "transformation_info_list", "unmapped", "urls",
    "vulnerabilities", "xattributes"]

def startsWith (text start : String) : Bool := start.toList.isPrefixOf text.toList

def residualJsonColumn (path : String) : Bool :=
  if path ∈ residualRoots then true
  else if ∀ start ∈ residualPrefixes, startsWith path start = false then false
  else (Text.split '.' path).getLast?.any (· ∈ residualNames)

def unsupportedColumn : OcsfError :=
  .invalidParquet "typed relation" "unsupported schema-version-2 typed column"

def int64Json : ℤ → Json
  | .ofNat n => .number (.posInt n)
  | .negSucc n => .number (.negInt n)

/-- The exponent of a 64-bit float is not all ones. -/
def IsFiniteF64 (bits : Machine.U64) : Prop := (bits : ℕ) / 2 ^ 52 % 2 ^ 11 ≠ 2047

instance : DecidablePred IsFiniteF64 := fun bits => by unfold IsFiniteF64; infer_instance

variable (parseJson : String → Except String Json)

/-- The value of a cell; none when it is null. -/
def typedColumnValue (path : String) : DataType → Cell → ℕ → Result (Option Json)
  | _, .null, _ => .ok none
  | .utf8, .utf8 text, row =>
    if residualJsonColumn path then
      ((parseJson text).mapError (.typedJson path row text.utf8ByteSize)).map some
    else .ok (some (.string text))
  | .int64, .int64 value, _ => .ok (some (int64Json value))
  | .float64, .float64 bits, _ =>
    if IsFiniteF64 bits then .ok (some (.number (.float bits))) else .error unsupportedColumn
  | .boolean, .boolean value, _ => .ok (some (.bool value))
  | .list item, .list items, _ => do
    let values ← items.zipIdx.mapM fun (cell, index) => do
      throwIf (cell.isNull = true) unsupportedColumn
      let value ← typedColumnValue path item cell index
      orThrow value unsupportedColumn
    return some (.array values)
  | _, _, _ => .error unsupportedColumn

structure TypedColumn where
  name : String
  dataType : DataType
  cell : Cell

/-- A row: its columns in the order of the schema, and its empty objects, as far as
the column that lists them holds a list of texts. -/
structure TypedRow where
  ordinal : ℕ
  columns : List TypedColumn
  emptyObjectPaths : Option (Except String (List String))

/-! ### Insertion -/

def duplicatePath : OcsfError := .invalidParquet "typed relation" "duplicate decoded typed path"

def conflictingPath : OcsfError :=
  .invalidParquet "typed relation" "conflicting decoded typed path"

def insertJsonPath : List String → Json → List (String × Json) → Result (List (String × Json))
  | [], _, members => .ok members
  | [part], value, members =>
    if (field? members part).isSome then .error duplicatePath
    else .ok (SortedMap.insertEntry part value members)
  | part :: next :: parts, value, members =>
    match field? members part with
    | none => do
      let inner ← insertJsonPath (next :: parts) value []
      return SortedMap.insertEntry part (.object inner) members
    | some (.object existing) => do
      let inner ← insertJsonPath (next :: parts) value existing
      return SortedMap.insertEntry part (.object inner) members
    | some _ => .error conflictingPath

/-- The path of an event column. -/
def eventPath (name : String) : Option String :=
  if startsWith name "event." then some (String.ofList (name.toList.drop 6)) else none

def insertColumn (row : ℕ) (root : List (String × Json)) (column : TypedColumn) :
    Result (List (String × Json)) :=
  match eventPath column.name with
  | none => .ok root
  | some path => do
    let value ← typedColumnValue parseJson column.name column.dataType column.cell row
    match value with
    | none => .ok root
    | some value => insertJsonPath (Text.split '.' path) value root

def insertEmptyObject (root : List (String × Json)) (path : String) :
    Result (List (String × Json)) :=
  insertJsonPath (Text.split '.' path) (.object []) root

/-- The event of one row. -/
def typedEvent (row : TypedRow) : Result Json := do
  let root ← row.columns.foldlM (insertColumn parseJson row.ordinal) []
  match row.emptyObjectPaths with
  | none => return .object root
  | some listed => do
    let paths ← listed.mapError .json
    let root ← paths.foldlM insertEmptyObject root
    return .object root

/-- The events of a batch, one text a row. -/
def logicalTypedBatch (writeJson : Json → String) (rows : List TypedRow) :
    Result (List String) :=
  rows.mapM fun row => do
    let event ← typedEvent parseJson row
    return writeJson event

/-! ### Entries -/

/-- A value and the path it is inserted at. -/
abbrev Entry := List String × Json

def insertAll (entries : List Entry) (root : List (String × Json)) :
    Result (List (String × Json)) :=
  entries.foldlM (fun root entry => insertJsonPath entry.1 entry.2 root) root

/-- What a column inserts. -/
def columnEntry (row : ℕ) (column : TypedColumn) : Result (Option Entry) :=
  match eventPath column.name with
  | none => .ok none
  | some path => do
    let value ← typedColumnValue parseJson column.name column.dataType column.cell row
    return value.map (Text.split '.' path, ·)

def columnEntries (row : ℕ) (columns : List TypedColumn) : Result (List Entry) := do
  let entries ← columns.mapM (columnEntry parseJson row)
  return entries.filterMap id

def emptyObjectEntry (path : String) : Entry := (Text.split '.' path, .object [])

def emptyObjectEntries (row : TypedRow) : Result (List Entry) :=
  match row.emptyObjectPaths with
  | none => .ok []
  | some listed => do
    let paths ← listed.mapError .json
    return paths.map emptyObjectEntry

/-- What a row inserts: the values of its columns, then its empty objects. It has no
entries when a cell or the list of empty objects cannot be read. -/
def rowEntries (row : TypedRow) : Result (List Entry × List Entry) := do
  let columns ← columnEntries parseJson row.ordinal row.columns
  let empties ← emptyObjectEntries row
  return (columns, empties)

theorem foldlM_insertColumn {row : ℕ} {columns : List TypedColumn}
    {root root' : List (String × Json)} :
    columns.foldlM (insertColumn parseJson row) root = .ok root' ↔
      ∃ entries, columnEntries parseJson row columns = .ok entries ∧
        insertAll entries root = .ok root' := by
  have hentries : ∀ columns entries, columnEntries parseJson row columns = .ok entries ↔
      ∃ read, columns.mapM (columnEntry parseJson row) = .ok read ∧ read.filterMap id = entries := by
    intro columns entries
    simp only [columnEntries, bind_eq_ok, pure_eq_ok]
  induction columns generalizing root with
  | nil => simp [columnEntries, insertAll]
  | cons column columns ih =>
    have hstep : insertColumn parseJson row root column =
        columnEntry parseJson row column >>= fun entry =>
          insertAll entry.toList root := by
      unfold insertColumn columnEntry
      cases eventPath column.name with
      | none => rfl
      | some path =>
        show (typedColumnValue parseJson _ _ _ _ >>= _) = _
        cases typedColumnValue parseJson column.name column.dataType column.cell row with
        | error error => rfl
        | ok value =>
          cases value with
          | none => rfl
          | some value =>
            show insertJsonPath _ _ _ = insertJsonPath _ _ _ >>= pure
            rw [bind_pure]
    rw [List.foldlM_cons, hstep]
    simp only [bind_eq_ok, ih, hentries, List.mapM_cons, pure_eq_ok]
    constructor
    · rintro ⟨middle, ⟨entry, hentry, hinsert⟩, rest, ⟨read, hread, rfl⟩, hrest⟩
      refine ⟨_, ⟨entry :: read, ⟨entry, hentry, read, hread, rfl⟩, rfl⟩, ?_⟩
      have hsplit : (entry :: read).filterMap id = entry.toList ++ read.filterMap id := by
        cases entry <;> rfl
      rw [hsplit, insertAll, List.foldlM_append]
      exact bind_eq_ok.mpr ⟨middle, hinsert, hrest⟩
    · rintro ⟨_, ⟨_, ⟨entry, hentry, read, hread, rfl⟩, rfl⟩, hrest⟩
      have hsplit : (entry :: read).filterMap id = entry.toList ++ read.filterMap id := by
        cases entry <;> rfl
      rw [hsplit, insertAll, List.foldlM_append] at hrest
      obtain ⟨middle, hinsert, hrest⟩ := bind_eq_ok.mp hrest
      exact ⟨middle, ⟨entry, hentry, hinsert⟩, _, ⟨read, hread, rfl⟩, hrest⟩

/-- **A row is read by inserting its entries.** -/
theorem typedEvent_eq_ok {row : TypedRow} {event : Json} :
    typedEvent parseJson row = .ok event ↔ ∃ columns empties root,
      rowEntries parseJson row = .ok (columns, empties) ∧
        insertAll (columns ++ empties) [] = .ok root ∧ event = .object root := by
  have hempties : ∀ (paths : List String) root,
      paths.foldlM insertEmptyObject root = insertAll (paths.map emptyObjectEntry) root :=
    fun paths root => by rw [insertAll, List.foldlM_map]; rfl
  simp only [typedEvent, rowEntries, emptyObjectEntries, bind_eq_ok, foldlM_insertColumn,
    pure_eq_ok, insertAll, List.foldlM_append]
  cases row.emptyObjectPaths with
  | none =>
    constructor
    · rintro ⟨root, ⟨columns, hcolumns, hinsert⟩, hevent⟩
      obtain rfl := Except.ok.inj hevent
      exact ⟨columns, [], root, ⟨columns, hcolumns, [], rfl, rfl⟩, ⟨root, hinsert, rfl⟩, rfl⟩
    · rintro ⟨_, _, root, ⟨columns, hcolumns, empties, hempty, heq⟩, ⟨middle, hinsert, hrest⟩, rfl⟩
      cases heq
      cases hempty
      cases hrest
      exact ⟨_, ⟨_, hcolumns, hinsert⟩, rfl⟩
  | some listed =>
    cases listed with
    | error error =>
      constructor
      · rintro ⟨root, -, hevent⟩
        cases hevent
      · rintro ⟨_, _, root, ⟨columns, hcolumns, empties, hempty, heq⟩, -⟩
        cases hempty
    | ok paths =>
      constructor
      · rintro ⟨middle, ⟨columns, hcolumns, hinsert⟩, hevent⟩
        have hpaths : (paths.foldlM insertEmptyObject middle >>= fun root => .ok (.object root)) =
            (.ok event : Result Json) := hevent
        obtain ⟨root, hroot, heq⟩ := bind_eq_ok.mp hpaths
        obtain rfl := Except.ok.inj heq
        rw [hempties] at hroot
        exact ⟨columns, _, root, ⟨columns, hcolumns, _, rfl, rfl⟩, ⟨middle, hinsert, hroot⟩, rfl⟩
      · rintro ⟨_, _, root, ⟨columns, hcolumns, empties, hempty, heq⟩, ⟨middle, hinsert, hrest⟩, rfl⟩
        cases heq
        cases hempty
        refine ⟨middle, ⟨_, hcolumns, hinsert⟩, ?_⟩
        have hinserted : paths.foldlM insertEmptyObject middle = .ok root := by
          rw [hempties]
          exact hrest
        show (paths.foldlM insertEmptyObject middle >>= fun root => Except.ok (Json.object root)) = _
        rw [hinserted]
        rfl

/-! ### One insertion -/

/-- Nothing stands at the path, and what stands on the way is an object. -/
def HasRoom (path : List String) (members : List (String × Json)) : Prop :=
  valueAt path (.object members) = none ∧
    ∀ s, s <+: path → s ≠ path → ∀ value, valueAt s (.object members) = some value →
      IsObject value

theorem hasRoom_cons {part : String} {path : List String} (hpath : path ≠ [])
    {members : List (String × Json)} :
    HasRoom (part :: path) members ↔ ∀ value, field? members part = some value →
      ∃ inner, value = .object inner ∧ HasRoom path inner := by
  constructor
  · rintro ⟨hnone, habove⟩ value hfield
    have hstep : ∀ s, valueAt (part :: s) (.object members) = valueAt s value := fun s => by
      rw [valueAt_cons, hfield, Option.bind_some]
    obtain ⟨inner, rfl⟩ := habove [part] (by simp) (by simpa using Ne.symm hpath) value (hstep [])
    refine ⟨inner, rfl, by rw [← hstep, hnone], fun s hs hne value hvalue => ?_⟩
    refine habove (part :: s) (List.cons_prefix_cons.mpr ⟨rfl, hs⟩) ?_ value
      (by rw [hstep, hvalue])
    exact fun heq => hne (List.cons.inj heq).2
  · intro h
    refine ⟨?_, fun s hs hne value hvalue => ?_⟩
    · rw [valueAt_cons]
      cases hfield : field? members part with
      | none => rfl
      | some value =>
        obtain ⟨inner, rfl, hroom⟩ := h value hfield
        exact hroom.1
    · cases s with
      | nil => exact ⟨members, (Option.some.inj hvalue).symm⟩
      | cons key s =>
        obtain ⟨rfl, hprefix⟩ := List.cons_prefix_cons.mp hs
        rw [valueAt_cons] at hvalue
        obtain ⟨found, hfield, hvalue⟩ := Option.bind_eq_some_iff.mp hvalue
        obtain ⟨inner, rfl, hroom⟩ := h found hfield
        exact hroom.2 s hprefix (fun heq => hne (by rw [heq])) value hvalue

/-- **One insertion** succeeds where there is room, and places the value. -/
theorem insertJsonPath_eq_ok {path : List String} (hpath : path ≠ []) {value : Json}
    {members members' : List (String × Json)} :
    insertJsonPath path value members = .ok members' ↔
      HasRoom path members ∧ placed path value members = members' := by
  induction path generalizing members members' with
  | nil => exact absurd rfl hpath
  | cons part path ih =>
    cases path with
    | nil =>
      have hroom : HasRoom [part] members ↔ field? members part = none := by
        have hat : valueAt [part] (.object members) = field? members part := by
          rw [valueAt_cons]
          exact Option.bind_fun_some _
        refine ⟨fun h => hat ▸ h.1, fun h => ⟨hat.trans h, fun s hs hne value hvalue => ?_⟩⟩
        obtain rfl : s = [] := by
          cases s with
          | nil => rfl
          | cons key s =>
            obtain ⟨rfl, hprefix⟩ := List.cons_prefix_cons.mp hs
            exact absurd (congrArg (key :: ·) (List.prefix_nil.mp hprefix)) hne
        exact ⟨members, (Option.some.inj hvalue).symm⟩
      rw [hroom, insertJsonPath]
      cases hfield : field? members part with
      | none => simp [placed]
      | some found => simp
    | cons next path =>
      have hinner : ∀ inner, (insertJsonPath (next :: path) value inner >>= fun inner =>
          pure (SortedMap.insertEntry part (.object inner) members)) = .ok members' ↔
          HasRoom (next :: path) inner ∧ SortedMap.insertEntry part
            (.object (placed (next :: path) value inner)) members = members' := by
        intro inner
        simp only [bind_eq_ok, ih (List.cons_ne_nil _ _), pure_eq_ok]
        constructor
        · rintro ⟨_, ⟨hroom, rfl⟩, heq⟩
          exact ⟨hroom, heq⟩
        · rintro ⟨hroom, heq⟩
          exact ⟨_, ⟨hroom, rfl⟩, heq⟩
      have hempty : HasRoom (next :: path) [] := by
        refine ⟨rfl, fun s hs hne found hfound => ?_⟩
        cases s with
        | nil => exact ⟨[], (Option.some.inj hfound).symm⟩
        | cons key s => cases hfound
      rw [hasRoom_cons (List.cons_ne_nil _ _), insertJsonPath, placed, membersAt]
      cases hfield : field? members part with
      | none =>
        refine (hinner []).trans (and_congr_left fun _ => ?_)
        exact iff_of_true hempty nofun
      | some found =>
        cases found with
        | object existing =>
          refine (hinner existing).trans (and_congr_left fun _ => ?_)
          constructor
          · rintro hroom _ heq
            exact ⟨existing, (Option.some.inj heq).symm, hroom⟩
          · intro h
            obtain ⟨inner, heq, hroom⟩ := h _ rfl
            cases heq
            exact hroom
        | null => simp
        | bool => simp
        | number => simp
        | string => simp
        | array => simp

/-! ### Orders of insertions -/

/-- The later entry finds room after the earlier one: it does not lie above it, and
where it lies below, the earlier value has room for it. -/
def FitsAfter (earlier later : Entry) : Prop :=
  ¬ later.1 <+: earlier.1 ∧ ∀ r, later.1 = earlier.1 ++ r →
    valueAt r earlier.2 = none ∧ ∀ s, s <+: r → s ≠ r → ∀ value,
      valueAt s earlier.2 = some value → IsObject value

def placedAll (entries : List Entry) : List (String × Json) :=
  entries.foldl (fun members entry => placed entry.1 entry.2 members) []

theorem placedAll_concat (entries : List Entry) (entry : Entry) :
    placedAll (entries ++ [entry]) = placed entry.1 entry.2 (placedAll entries) := by
  rw [placedAll, List.foldl_append]
  rfl

theorem exists_valueAt_of_prefix {s t : List String} (h : s <+: t) {value found : Json}
    (ht : valueAt t value = some found) : ∃ above, valueAt s value = some above := by
  obtain ⟨r, rfl⟩ := h
  rw [valueAt_append] at ht
  obtain ⟨above, habove, -⟩ := Option.bind_eq_some_iff.mp ht
  exact ⟨above, habove⟩

/-- What stands in a tree comes from its entries, and each entry is still there, up to
what was inserted below it. -/
structure Holds (entries : List Entry) (members : List (String × Json)) : Prop where
  comes_from : ∀ s ≠ [], ∀ value, valueAt s (.object members) = some value →
    ∃ entry ∈ entries, (∃ r inner, s = entry.1 ++ r ∧ valueAt r entry.2 = some inner ∧
        (IsObject inner → IsObject value)) ∨ (s <+: entry.1 ∧ s ≠ entry.1 ∧ IsObject value)
  stays : ∀ entry ∈ entries, ∀ r inner, valueAt r entry.2 = some inner →
    ∃ value, valueAt (entry.1 ++ r) (.object members) = some value ∧
      (IsObject value → IsObject inner)

theorem Holds.concat {entries : List Entry} {members : List (String × Json)} {entry : Entry}
    (h : Holds entries members) (hpath : entry.1 ≠ []) (hroom : HasRoom entry.1 members) :
    Holds (entries ++ [entry]) (placed entry.1 entry.2 members) where
  comes_from s hs value hvalue := by
    by_cases hbelow : entry.1 <+: s
    · obtain ⟨r, rfl⟩ := hbelow
      rw [valueAt_placed_below _ _ hpath] at hvalue
      exact ⟨entry, by simp, .inl ⟨r, value, rfl, hvalue, id⟩⟩
    by_cases habove : s <+: entry.1
    · have hne : s ≠ entry.1 := fun heq => hbelow (heq ▸ List.prefix_rfl)
      obtain ⟨inner, hinner⟩ := valueAt_placed_above entry.2 members habove hne
      obtain rfl := Option.some.inj (hvalue.symm.trans hinner)
      exact ⟨entry, by simp, .inr ⟨habove, hne, inner, rfl⟩⟩
    · rw [valueAt_placed_off _ _ ⟨hbelow, habove⟩] at hvalue
      obtain ⟨other, hother, horigin⟩ := h.comes_from s hs value hvalue
      exact ⟨other, List.mem_append_left _ hother, horigin⟩
  stays other hother r inner hinner := by
    rcases List.mem_append.mp hother with hold | hnew
    · obtain ⟨value, hvalue, hkind⟩ := h.stays other hold r inner hinner
      by_cases hbelow : entry.1 <+: other.1 ++ r
      · -- nothing stood at the new path
        obtain ⟨above, habove⟩ := exists_valueAt_of_prefix hbelow hvalue
        rw [hroom.1] at habove
        cases habove
      by_cases habove : other.1 ++ r <+: entry.1
      · have hne : other.1 ++ r ≠ entry.1 := fun heq => hbelow (heq ▸ List.prefix_rfl)
        obtain ⟨object, hobject⟩ := valueAt_placed_above entry.2 members habove hne
        exact ⟨_, hobject, fun _ => hkind (hroom.2 _ habove hne value hvalue)⟩
      · exact ⟨value, by rw [valueAt_placed_off _ _ ⟨hbelow, habove⟩, hvalue], hkind⟩
    · obtain rfl := List.mem_singleton.mp hnew
      exact ⟨inner, by rw [valueAt_placed_below _ _ hpath, hinner], id⟩

/-- There is room for one more entry when it fits after each. -/
theorem Holds.hasRoom_iff {entries : List Entry} {members : List (String × Json)} {entry : Entry}
    (h : Holds entries members) (hpath : entry.1 ≠ []) :
    HasRoom entry.1 members ↔ ∀ earlier ∈ entries, FitsAfter earlier entry := by
  constructor
  · rintro ⟨hnone, habove⟩ earlier hearlier
    refine ⟨fun hprefix => ?_, fun r heq => ⟨?_, fun s hs hne inner hinner => ?_⟩⟩
    · obtain ⟨value, hvalue, -⟩ := h.stays earlier hearlier [] _ rfl
      rw [List.append_nil] at hvalue
      obtain ⟨found, hfound⟩ := exists_valueAt_of_prefix hprefix hvalue
      rw [hnone] at hfound
      cases hfound
    · refine Option.eq_none_iff_forall_ne_some.mpr fun inner hinner => ?_
      obtain ⟨value, hvalue, -⟩ := h.stays earlier hearlier r inner hinner
      rw [← heq, hnone] at hvalue
      cases hvalue
    · obtain ⟨value, hvalue, hkind⟩ := h.stays earlier hearlier s inner hinner
      refine hkind (habove _ ?_ ?_ value hvalue)
      · rw [heq]
        exact List.prefix_append_right_inj earlier.1 |>.mpr hs
      · rw [heq]
        exact fun heq => hne (List.append_cancel_left heq)
  · intro hfits
    refine ⟨Option.eq_none_iff_forall_ne_some.mpr fun value hvalue => ?_,
      fun s hs hne value hvalue => ?_⟩
    · obtain ⟨earlier, hearlier, ⟨r, inner, heq, hinner, -⟩ | ⟨hpre, -, -⟩⟩ :=
        h.comes_from _ hpath value hvalue
      · rw [((hfits earlier hearlier).2 r heq).1] at hinner
        cases hinner
      · exact (hfits earlier hearlier).1 hpre
    · by_cases hnil : s = []
      · subst hnil
        exact ⟨members, (Option.some.inj hvalue).symm⟩
      obtain ⟨earlier, hearlier, ⟨r, inner, rfl, hinner, hkind⟩ | ⟨-, -, hobject⟩⟩ :=
        h.comes_from s hnil value hvalue
      · obtain ⟨t, ht⟩ := hs
        refine hkind (((hfits earlier hearlier).2 (r ++ t) ?_).2 r (List.prefix_append _ _) ?_
          inner hinner)
        · rw [← ht, List.append_assoc]
        · intro heq
          have ht' : t = [] := by simpa using heq
          exact hne (by rw [← ht, ht', List.append_nil])
      · exact hobject

/-- **An order of insertions** succeeds exactly when every entry fits after each one
before it. -/
theorem insertAll_eq_ok {entries : List Entry} (hpaths : ∀ entry ∈ entries, entry.1 ≠ [])
    {root : List (String × Json)} :
    insertAll entries [] = .ok root ↔
      entries.Pairwise FitsAfter ∧ placedAll entries = root := by
  suffices h : (∀ root, insertAll entries [] = .ok root ↔
      entries.Pairwise FitsAfter ∧ placedAll entries = root) ∧
      (entries.Pairwise FitsAfter → Holds entries (placedAll entries)) from h.1 root
  induction entries using List.reverseRecOn with
  | nil =>
    refine ⟨fun root => ?_, fun _ => ⟨fun s hs value hvalue => ?_, nofun⟩⟩
    · rw [insertAll, List.foldlM_nil, pure_eq_ok]
      exact ⟨fun heq => ⟨List.Pairwise.nil, heq⟩, fun h => h.2⟩
    · cases s with
      | nil => exact absurd rfl hs
      | cons key s => cases hvalue
  | append_singleton entries entry ih =>
    have hentry : entry.1 ≠ [] := hpaths entry (by simp)
    obtain ⟨hrun, hholds⟩ := ih fun e he => hpaths e (List.mem_append_left _ he)
    have hpairwise : (entries ++ [entry]).Pairwise FitsAfter ↔
        entries.Pairwise FitsAfter ∧ HasRoom entry.1 (placedAll entries) := by
      simp only [List.pairwise_append, List.pairwise_singleton, List.mem_singleton,
        forall_eq, true_and]
      exact and_congr_right fun h => ((hholds h).hasRoom_iff hentry).symm
    refine ⟨fun root => ?_, fun h => ?_⟩
    · rw [hpairwise, placedAll_concat]
      show (entries ++ [entry]).foldlM _ _ = _ ↔ _
      rw [List.foldlM_append]
      simp only [bind_eq_ok, List.foldlM_cons, List.foldlM_nil]
      constructor
      · rintro ⟨middle, hmiddle, root', hinsert, hroot⟩
        obtain rfl := Except.ok.inj hroot
        obtain ⟨hfits, rfl⟩ := (hrun middle).mp hmiddle
        obtain ⟨hroom, rfl⟩ := (insertJsonPath_eq_ok hentry).mp hinsert
        exact ⟨⟨hfits, hroom⟩, rfl⟩
      · rintro ⟨⟨hfits, hroom⟩, rfl⟩
        exact ⟨_, (hrun _).mpr ⟨hfits, rfl⟩, _,
          (insertJsonPath_eq_ok hentry).mpr ⟨hroom, rfl⟩, rfl⟩
    · obtain ⟨hfits, hroom⟩ := hpairwise.mp h
      rw [placedAll_concat]
      exact (hholds hfits).concat hentry hroom

/-! ### Exact trees -/

/-- No path lies below another, and none occurs twice. -/
def AllApart (entries : List Entry) : Prop :=
  entries.Pairwise fun a b => Apart a.1 b.1

/-- The tree holds the value of every entry at its path, and besides the entries only
the objects on the way to them. -/
structure Exactly (entries : List Entry) (event : Json) : Prop where
  isObject : IsObject event
  values : ∀ entry ∈ entries, valueAt entry.1 event = some entry.2
  only : ∀ s ≠ [], ∀ value, valueAt s event = some value →
    ∃ entry ∈ entries, (∃ r, s = entry.1 ++ r ∧ valueAt r entry.2 = some value) ∨
      (s <+: entry.1 ∧ s ≠ entry.1 ∧ IsObject value)

theorem fitsAfter_of_apart {earlier later : Entry} (h : Apart earlier.1 later.1) :
    FitsAfter earlier later :=
  ⟨h.2, fun _ heq => absurd (heq ▸ List.prefix_append _ _) h.1⟩

/-- A placement keeps what lies apart from it, and everything below that. -/
theorem valueAt_placed_of_apart {entry : Entry} {p : List String} (h : Apart entry.1 p)
    (r : List String) (members : List (String × Json)) :
    valueAt (p ++ r) (.object (placed entry.1 entry.2 members)) =
      valueAt (p ++ r) (.object members) := by
  refine valueAt_placed_off _ _ ⟨fun hprefix => ?_, fun hprefix => h.2 ?_⟩
  · rcases List.prefix_or_prefix_of_prefix hprefix (List.prefix_append p r) with hp | hp
    · exact h.1 hp
    · exact h.2 hp
  · exact (List.prefix_append p r).trans hprefix

/-- **Entries that lie apart are placed exactly.** -/
theorem exactly_placedAll {entries : List Entry} (hpaths : ∀ entry ∈ entries, entry.1 ≠ [])
    (hapart : AllApart entries) : Exactly entries (.object (placedAll entries)) := by
  induction entries using List.reverseRecOn with
  | nil =>
    refine ⟨⟨_, rfl⟩, nofun, fun s hs value hvalue => ?_⟩
    cases s with
    | nil => exact absurd rfl hs
    | cons key s => cases hvalue
  | append_singleton entries entry ih =>
    obtain ⟨hentries, -, hlast⟩ := List.pairwise_append.mp hapart
    have hlast' : ∀ other ∈ entries, Apart entry.1 other.1 := fun other hother =>
      (hlast other hother entry (by simp)).symm
    obtain ⟨-, hvalues, honly⟩ := ih (fun e he => hpaths e (List.mem_append_left _ he)) hentries
    have hpath : entry.1 ≠ [] := hpaths entry (by simp)
    rw [placedAll_concat]
    refine ⟨⟨_, rfl⟩, fun other hother => ?_, fun s hs value hvalue => ?_⟩
    · rcases List.mem_append.mp hother with hold | hnew
      · have hkeep := valueAt_placed_of_apart (hlast' other hold) [] (placedAll entries)
        rw [List.append_nil] at hkeep
        rw [hkeep, hvalues other hold]
      · obtain rfl := List.mem_singleton.mp hnew
        have hbelow := valueAt_placed_below other.2 (placedAll entries) hpath []
        rwa [List.append_nil] at hbelow
    · by_cases hbelow : entry.1 <+: s
      · obtain ⟨r, rfl⟩ := hbelow
        rw [valueAt_placed_below _ _ hpath] at hvalue
        exact ⟨entry, by simp, .inl ⟨r, rfl, hvalue⟩⟩
      by_cases habove : s <+: entry.1
      · have hne : s ≠ entry.1 := fun heq => hbelow (heq ▸ List.prefix_rfl)
        obtain ⟨inner, hinner⟩ := valueAt_placed_above entry.2 (placedAll entries)
          habove hne
        obtain rfl := Option.some.inj (hvalue.symm.trans hinner)
        exact ⟨entry, by simp, .inr ⟨habove, hne, inner, rfl⟩⟩
      · rw [valueAt_placed_off _ _ ⟨hbelow, habove⟩] at hvalue
        obtain ⟨other, hother, horigin⟩ := honly s hs value hvalue
        exact ⟨other, List.mem_append_left _ hother, horigin⟩

/-- An exact tree of insertions has no path below another. -/
theorem allApart_of_exactly {entries : List Entry} (hfits : entries.Pairwise FitsAfter)
    {event : Json} (h : Exactly entries event) : AllApart entries := by
  refine hfits.imp_of_mem fun {earlier later} hearlier hlater hfit => ⟨?_, hfit.1⟩
  rintro ⟨r, heq⟩
  have hvalue := h.values later hlater
  rw [← heq, valueAt_append, h.values earlier hearlier, Option.bind_some,
    (hfit.2 r heq.symm).1] at hvalue
  cases hvalue

/-- Entries that lie apart give one tree, in every order. -/
theorem placedAll_perm {entries entries' : List Entry} (hperm : entries.Perm entries')
    (hapart : AllApart entries) : placedAll entries = placedAll entries' := by
  refine hperm.foldl_eq' (fun a ha b hb members => ?_) []
  by_cases hab : a = b
  · rw [hab]
  · have hsymm : Std.Symm fun a b : Entry => Apart a.1 b.1 := ⟨fun a b h => h.symm⟩
    exact placed_comm (List.Pairwise.forall hapart hb ha (Ne.symm hab)) _ _ _

/-! ### Rows in another order -/

/-- The same list of empty objects in another order. -/
def EmptyPathsPerm : Option (Except String (List String)) →
    Option (Except String (List String)) → Prop
  | some (.ok paths), some (.ok paths') => paths.Perm paths'
  | listed, listed' => listed = listed'

/-- The row with its columns and its empty objects in another order. -/
structure Reorders (row row' : TypedRow) : Prop where
  ordinal : row.ordinal = row'.ordinal
  columns : row.columns.Perm row'.columns
  emptyObjectPaths : EmptyPathsPerm row.emptyObjectPaths row'.emptyObjectPaths

theorem Reorders.symm {row row' : TypedRow} (h : Reorders row row') : Reorders row' row where
  ordinal := h.ordinal.symm
  columns := h.columns.symm
  emptyObjectPaths := by
    have hpaths := h.emptyObjectPaths
    unfold EmptyPathsPerm at hpaths ⊢
    split at hpaths
    · next heq heq' =>
      rw [heq, heq']
      exact hpaths.symm
    · rw [hpaths] at *
      split
      · next heq heq' =>
        obtain rfl : _ = _ := Except.ok.inj (Option.some.inj (heq.symm.trans heq'))
        exact List.Perm.refl _
      · rfl

/-- The reordered row has the entries of the row, in another order. -/
theorem Reorders.rowEntries {row row' : TypedRow} (h : Reorders row row')
    {columns empties : List Entry} (hentries : rowEntries parseJson row = .ok (columns, empties)) :
    ∃ columns' empties', Ocsf.rowEntries parseJson row' = .ok (columns', empties') ∧
      columns.Perm columns' ∧ empties.Perm empties' := by
  simp only [Ocsf.rowEntries, columnEntries, bind_eq_ok, pure_eq_ok] at hentries ⊢
  obtain ⟨_, ⟨read, hread, rfl⟩, found, hempties, heq⟩ := hentries
  obtain ⟨rfl, hfound⟩ := Prod.mk.inj heq
  subst hfound
  obtain ⟨read', hread', hperm⟩ := mapM_perm h.columns hread
  rw [h.ordinal] at hread'
  have hlisted : ∃ empties', emptyObjectEntries row' = .ok empties' ∧ found.Perm empties' := by
    have hpaths := h.emptyObjectPaths
    unfold EmptyPathsPerm at hpaths
    unfold emptyObjectEntries at hempties ⊢
    split at hpaths
    · next paths paths' heq heq' =>
      rw [heq] at hempties
      rw [heq']
      obtain rfl : paths.map emptyObjectEntry = found := Except.ok.inj hempties
      exact ⟨_, rfl, hpaths.map _⟩
    · rw [← hpaths]
      exact ⟨found, hempties, List.Perm.refl _⟩
  obtain ⟨empties', hempties', hperm'⟩ := hlisted
  exact ⟨_, empties', ⟨_, ⟨read', hread', rfl⟩, empties', hempties', rfl⟩, hperm.filterMap _,
    hperm'⟩

/-! ### Canonical rows -/

/-- Two entries fit in no order in which they can be inserted: the columns come before
the empty objects. -/
def Conflicting (columns empties : List Entry) : Prop :=
  ¬ columns.Pairwise (fun a b => FitsAfter a b ∨ FitsAfter b a) ∨
    ¬ empties.Pairwise (fun a b => FitsAfter a b ∨ FitsAfter b a) ∨
    ∃ column ∈ columns, ∃ empty ∈ empties, ¬ FitsAfter column empty

/-- The reading of a row is the same in every order, and exact when there is one. -/
structure Canonical (row : TypedRow) : Prop where
  invariant : ∀ row', Reorders row row' →
    (typedEvent parseJson row').toOption = (typedEvent parseJson row).toOption
  exact : ∀ event, typedEvent parseJson row = .ok event → ∃ columns empties,
    rowEntries parseJson row = .ok (columns, empties) ∧ Exactly (columns ++ empties) event

theorem split_ne_nil (separator : Char) (text : String) : Text.split separator text ≠ [] := by
  rw [Text.split, ne_eq, List.map_eq_nil_iff]
  exact List.splitOn_ne_nil _ _

/-- How deep a column is inserted. -/
def depth (column : TypedColumn) : ℕ :=
  ((eventPath column.name).map fun path => (Text.split '.' path).length).getD 0

theorem columnEntry_depth {row : ℕ} {column : TypedColumn} {entry : Entry}
    (h : columnEntry parseJson row column = .ok (some entry)) :
    entry.1 ≠ [] ∧ entry.1.length = depth column := by
  unfold columnEntry at h
  unfold depth
  cases hpath : eventPath column.name with
  | none =>
    rw [hpath] at h
    cases h
  | some path =>
    rw [hpath] at h
    obtain ⟨value, -, heq⟩ := bind_eq_ok.mp h
    obtain ⟨found, -, rfl⟩ := Option.map_eq_some_iff.mp (Except.ok.inj heq)
    exact ⟨split_ne_nil _ _, rfl⟩

theorem columnEntries_depth {row : ℕ} {columns : List TypedColumn} {entries : List Entry}
    (h : columnEntries parseJson row columns = .ok entries) :
    (∀ entry ∈ entries, entry.1 ≠ [] ∧ ∃ column ∈ columns, entry.1.length = depth column) ∧
      (columns.Pairwise (fun a b => depth a ≤ depth b) →
        entries.Pairwise fun a b => a.1.length ≤ b.1.length) := by
  simp only [columnEntries, bind_eq_ok, pure_eq_ok] at h
  obtain ⟨read, hread, rfl⟩ := h
  rw [mapM_eq_ok] at hread
  induction hread with
  | nil => exact ⟨fun entry hentry => absurd hentry List.not_mem_nil, fun _ => List.Pairwise.nil⟩
  | @cons column found columns read hcolumn _ ih =>
    obtain ⟨hfrom, hsorted⟩ := ih
    have hrest : ∀ entry ∈ read.filterMap id, entry.1 ≠ [] ∧
        ∃ other ∈ column :: columns, entry.1.length = depth other := by
      intro entry hentry
      obtain ⟨hne, other, hother, hlength⟩ := hfrom entry hentry
      exact ⟨hne, other, List.mem_cons_of_mem _ hother, hlength⟩
    cases found with
    | none => exact ⟨hrest, fun hpair => hsorted (List.pairwise_cons.mp hpair).2⟩
    | some entry =>
      obtain ⟨hne, hlength⟩ := columnEntry_depth parseJson hcolumn
      refine ⟨List.forall_mem_cons.mpr ⟨⟨hne, column, by simp, hlength⟩, hrest⟩, fun hpair => ?_⟩
      obtain ⟨hfirst, hpair⟩ := List.pairwise_cons.mp hpair
      refine List.pairwise_cons.mpr ⟨fun later hlater => ?_, hsorted hpair⟩
      obtain ⟨-, other, hother, hlength'⟩ := hfrom later hlater
      rw [hlength, hlength']
      exact hfirst other hother

theorem rowEntries_paths {row : TypedRow} {columns empties : List Entry}
    (h : rowEntries parseJson row = .ok (columns, empties)) :
    ∀ entry ∈ columns ++ empties, entry.1 ≠ [] := by
  simp only [rowEntries, bind_eq_ok, pure_eq_ok] at h
  obtain ⟨read, hcolumns, listed, hempties, heq⟩ := h
  obtain ⟨rfl, rfl⟩ := Prod.mk.inj heq
  intro entry hentry
  rcases List.mem_append.mp hentry with hentry | hentry
  · exact ((columnEntries_depth parseJson hcolumns).1 entry hentry).1
  · unfold emptyObjectEntries at hempties
    split at hempties
    · cases hempties
      cases hentry
    · obtain ⟨paths, -, hpaths⟩ := bind_eq_ok.mp hempties
      obtain rfl := Except.ok.inj hpaths
      obtain ⟨path, -, rfl⟩ := List.mem_map.mp hentry
      exact split_ne_nil _ _

/-- The outermost paths first. -/
def shallowFirst {α : Type} (key : α → ℕ) (xs : List α) : List α :=
  xs.mergeSort fun a b => key a ≤ key b

theorem pairwise_shallowFirst {α : Type} (key : α → ℕ) (xs : List α) :
    (shallowFirst key xs).Pairwise fun a b => key a ≤ key b := by
  have hsorted := @List.pairwise_mergeSort α (fun a b => decide (key a ≤ key b))
    (fun a b c hab hbc => by simp only [decide_eq_true_eq] at *; omega)
    (fun a b => by simp only [Bool.or_eq_true, decide_eq_true_eq]; omega) xs
  exact hsorted.imp fun h => of_decide_eq_true h

/-- Of two entries that fit in some order, the outer one fits first. -/
theorem fitsAfter_of_shallow {a b : Entry} (hfits : FitsAfter a b ∨ FitsAfter b a)
    (hdepth : a.1.length ≤ b.1.length) : FitsAfter a b := by
  rcases hfits with hfits | hfits
  · exact hfits
  · refine fitsAfter_of_apart ⟨hfits.1, fun hprefix => hfits.1 ?_⟩
    have heq : b.1 = a.1 := hprefix.eq_of_length (le_antisymm hprefix.length_le hdepth)
    rw [heq]

/-- The row with the outermost columns and empty objects first. -/
def TypedRow.shallow (row : TypedRow) : TypedRow where
  ordinal := row.ordinal
  columns := shallowFirst depth row.columns
  emptyObjectPaths := row.emptyObjectPaths.map fun listed =>
    listed.map (shallowFirst fun path => (Text.split '.' path).length)

theorem reorders_shallow (row : TypedRow) : Reorders row row.shallow where
  ordinal := rfl
  columns := (List.mergeSort_perm _ _).symm
  emptyObjectPaths := by
    unfold TypedRow.shallow EmptyPathsPerm
    cases row.emptyObjectPaths with
    | none => rfl
    | some listed =>
      cases listed with
      | error error => rfl
      | ok paths => exact (List.mergeSort_perm _ _).symm

/-- The entries of the shallow row, in an order in which every two of them fit. -/
theorem shallow_fits {row : TypedRow} {columns empties : List Entry}
    (hentries : rowEntries parseJson row = .ok (columns, empties))
    (hno : ¬ Conflicting columns empties) :
    ∃ columns' empties', rowEntries parseJson row.shallow = .ok (columns', empties') ∧
      (columns' ++ empties').Pairwise FitsAfter := by
  simp only [Conflicting, not_or, not_not, not_exists, not_and] at hno
  obtain ⟨hcolumns, hempties, hcross⟩ := hno
  obtain ⟨columns', empties', hentries', hperm, hperm'⟩ :=
    (reorders_shallow row).rowEntries parseJson hentries
  have hshallow := hentries'
  simp only [rowEntries, bind_eq_ok, pure_eq_ok] at hshallow
  obtain ⟨read, hread, listed, hlisted, heq⟩ := hshallow
  obtain ⟨rfl, rfl⟩ := Prod.mk.inj heq
  have hsymm : ∀ {a b : Entry}, FitsAfter a b ∨ FitsAfter b a → FitsAfter b a ∨ FitsAfter a b :=
    Or.symm
  have hdepth : read.Pairwise fun a b => a.1.length ≤ b.1.length :=
    (columnEntries_depth parseJson hread).2 (pairwise_shallowFirst depth _)
  have hdepth' : listed.Pairwise fun a b => a.1.length ≤ b.1.length := by
    unfold emptyObjectEntries TypedRow.shallow at hlisted
    cases hrow : row.emptyObjectPaths with
    | none =>
      rw [hrow] at hlisted
      cases hlisted
      exact List.Pairwise.nil
    | some found =>
      rw [hrow] at hlisted
      obtain ⟨paths, hpaths, hmap⟩ := bind_eq_ok.mp hlisted
      obtain rfl := Except.ok.inj hmap
      cases found with
      | error error => cases hpaths
      | ok found =>
        obtain rfl := Except.ok.inj hpaths
        exact List.pairwise_map.mpr (pairwise_shallowFirst _ found)
  refine ⟨read, listed, hentries', List.pairwise_append.mpr ⟨?_, ?_, ?_⟩⟩
  · exact ((hperm.pairwise hcolumns hsymm).and hdepth).imp fun h => fitsAfter_of_shallow h.1 h.2
  · exact ((hperm'.pairwise hempties hsymm).and hdepth').imp fun h => fitsAfter_of_shallow h.1 h.2
  · intro column hcolumn empty hempty
    exact hcross column (hperm.mem_iff.mpr hcolumn) empty (hperm'.mem_iff.mpr hempty)

/-- Conflicting entries are inserted in no order. -/
theorem not_fits_of_conflicting {columns empties columns' empties' : List Entry}
    (hconflict : Conflicting columns empties) (hperm : columns.Perm columns')
    (hperm' : empties.Perm empties') : ¬ (columns' ++ empties').Pairwise FitsAfter := by
  intro hfits
  obtain ⟨hcolumns, hempties, hcross⟩ := List.pairwise_append.mp hfits
  have hsymm : ∀ {a b : Entry}, FitsAfter a b ∨ FitsAfter b a → FitsAfter b a ∨ FitsAfter a b :=
    Or.symm
  rcases hconflict with hconflict | hconflict | ⟨column, hcolumn, empty, hempty, hconflict⟩
  · exact hconflict (hperm.symm.pairwise (hcolumns.imp Or.inl) hsymm)
  · exact hconflict (hperm'.symm.pairwise (hempties.imp Or.inl) hsymm)
  · exact hconflict (hcross column (hperm.mem_iff.mp hcolumn) empty (hperm'.mem_iff.mp hempty))

/-- **The rows with a canonical reading** are those in which no path lies below another,
and those that conflict in every order. -/
theorem typedEvent_canonical_iff (row : TypedRow) :
    Canonical parseJson row ↔ ∀ columns empties,
      rowEntries parseJson row = .ok (columns, empties) →
        AllApart (columns ++ empties) ∨ Conflicting columns empties := by
  have hreads : ∀ {row : TypedRow} {columns empties : List Entry},
      rowEntries parseJson row = .ok (columns, empties) → ∀ event,
      typedEvent parseJson row = .ok event ↔
        (columns ++ empties).Pairwise FitsAfter ∧ event = .object (placedAll (columns ++ empties)) := by
    intro row columns empties hentries event
    rw [typedEvent_eq_ok]
    constructor
    · rintro ⟨columns', empties', root, hentries', hinsert, rfl⟩
      obtain ⟨rfl, rfl⟩ := Prod.mk.inj (Except.ok.inj (hentries.symm.trans hentries'))
      obtain ⟨hfits, rfl⟩ := (insertAll_eq_ok (rowEntries_paths parseJson hentries)).mp hinsert
      exact ⟨hfits, rfl⟩
    · rintro ⟨hfits, rfl⟩
      exact ⟨columns, empties, _, hentries,
        (insertAll_eq_ok (rowEntries_paths parseJson hentries)).mpr ⟨hfits, rfl⟩, rfl⟩
  constructor
  · -- the shallow order is accepted, so the row is, and exactly
    intro hcanonical columns empties hentries
    refine or_iff_not_imp_right.mpr fun hno => ?_
    obtain ⟨columns', empties', hentries', hfits'⟩ := shallow_fits parseJson hentries hno
    have hsame := hcanonical.invariant row.shallow (reorders_shallow row)
    rw [(hreads hentries' _).mpr ⟨hfits', rfl⟩] at hsame
    cases hevent : typedEvent parseJson row with
    | error error =>
      rw [hevent] at hsame
      cases hsame
    | ok event =>
      obtain ⟨columns'', empties'', hentries'', hexact⟩ := hcanonical.exact event hevent
      obtain ⟨rfl, rfl⟩ := Prod.mk.inj (Except.ok.inj (hentries.symm.trans hentries''))
      exact allApart_of_exactly ((hreads hentries event).mp hevent).1 hexact
  · intro hwhen
    refine ⟨fun row' hreorder => ?_, fun event hevent => ?_⟩
    · cases hentries : rowEntries parseJson row with
      | error error =>
        -- what cannot be read cannot be read in another order either
        have hnone : ∀ {row : TypedRow},
            (∀ columns empties, rowEntries parseJson row ≠ .ok (columns, empties)) →
            (typedEvent parseJson row).toOption = none := by
          intro row hne
          cases hevent : typedEvent parseJson row with
          | error error => rfl
          | ok event =>
            obtain ⟨columns, empties, -, hfound, -⟩ := (typedEvent_eq_ok parseJson).mp hevent
            exact absurd hfound (hne columns empties)
        rw [hnone fun columns empties hfound => ?_, hnone fun columns empties hfound => ?_]
        · rw [hentries] at hfound
          cases hfound
        · obtain ⟨_, _, hback, -, -⟩ := hreorder.symm.rowEntries parseJson hfound
          rw [hentries] at hback
          cases hback
      | ok entries =>
        obtain ⟨columns, empties⟩ := entries
        obtain ⟨columns', empties', hentries', hperm, hperm'⟩ :=
          hreorder.rowEntries parseJson hentries
        rcases hwhen columns empties hentries with hapart | hconflict
        · have hsymm : ∀ {a b : Entry}, Apart a.1 b.1 → Apart b.1 a.1 := Apart.symm
          have hall := hperm.append hperm'
          have hapart' : AllApart (columns' ++ empties') := hall.pairwise hapart hsymm
          rw [(hreads hentries' _).mpr ⟨hapart'.imp fitsAfter_of_apart, rfl⟩,
            (hreads hentries _).mpr ⟨hapart.imp fitsAfter_of_apart, rfl⟩, placedAll_perm hall hapart]
        · have hnone : ∀ {row : TypedRow} {columns empties : List Entry},
              rowEntries parseJson row = .ok (columns, empties) →
              ¬ (columns ++ empties).Pairwise FitsAfter →
              (typedEvent parseJson row).toOption = none := by
            intro row columns empties hentries hno
            cases hevent : typedEvent parseJson row with
            | error error => rfl
            | ok event => exact absurd ((hreads hentries event).mp hevent).1 hno
          rw [hnone hentries' (not_fits_of_conflicting hconflict hperm hperm'),
            hnone hentries (not_fits_of_conflicting hconflict (List.Perm.refl _) (List.Perm.refl _))]
    · obtain ⟨columns, empties, _, hentries, -, -⟩ := (typedEvent_eq_ok parseJson).mp hevent
      obtain ⟨hfits, rfl⟩ := (hreads hentries event).mp hevent
      refine ⟨columns, empties, hentries, exactly_placedAll (rowEntries_paths parseJson hentries) ?_⟩
      exact (hwhen columns empties hentries).resolve_right fun hconflict =>
        not_fits_of_conflicting hconflict (List.Perm.refl _) (List.Perm.refl _) hfits

/-- A header that is an object, and a column below it. -/
def sampleHeaderRow : TypedRow where
  ordinal := 0
  columns := [⟨"event.header", .utf8, .utf8 "{}"⟩, ⟨"event.header.b", .boolean, .boolean true⟩]
  emptyObjectPaths := none

/-- The column is read into the object when it comes second, and nothing is read when it
comes first. -/
theorem sampleHeaderRow_not_canonical :
    ¬ Canonical (fun _ => .ok (.object [])) sampleHeaderRow := by
  intro hcanonical
  let swapped : TypedRow := { sampleHeaderRow with columns := sampleHeaderRow.columns.reverse }
  have hsame := hcanonical.invariant swapped
    ⟨rfl, (List.reverse_perm _).symm, rfl⟩
  have hfirst : (typedEvent (fun _ => .ok (.object [])) sampleHeaderRow).toOption.isSome := by
    decide +kernel
  have hsecond : (typedEvent (fun _ => .ok (.object [])) swapped).toOption.isSome = false := by
    decide +kernel
  rw [hsame, hfirst] at hsecond
  cases hsecond

end LivefireRag.Ocsf
