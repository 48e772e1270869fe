import Mathlib.Data.String.Basic
import LivefireRag.Lib.Machine
import LivefireRag.Lib.SortedMap

/-!
# JSON values

The value tree of a JSON document. The members of an object stand in key order
without repetition, as in a serialiser that keeps objects in ordered maps:
`Json.mkObject` builds them from fields listed in any order, a later field
replacing an earlier one with the same key.

`ToJson` is the serialisation of a type. A record serialises through the list
of its fields, so a record flattened into another contributes its list, and
taking one member out of the serialised record is taking one field out of the
list (`remove_mkObject_cons`).
-/

/-- The three shapes a JSON number is kept in: an unsigned integer, a negative
integer `-(n + 1)`, or the bits of a floating-point number. -/
inductive JsonNumber where
  | posInt (n : ℕ)
  | negInt (n : ℕ)
  | float (bits : Machine.U64)
  deriving DecidableEq

/-- A JSON value. -/
inductive Json where
  | null
  | bool (b : Bool)
  | number (n : JsonNumber)
  | string (s : String)
  | array (elements : List Json)
  | object (members : List (String × Json))

namespace Json

/-- The object with the given fields. -/
def mkObject (fields : List (String × Json)) : Json :=
  .object (SortedMap.ofList fields).entries

/-- The object without its member `key`, and that member; nothing when the value
is not an object or has no such member. -/
def remove (key : String) : Json → Option (Json × Json)
  | .object members =>
    (members.find? fun m => m.1 = key).map fun m =>
      (m.2, .object (members.filter fun m => m.1 ≠ key))
  | _ => none

/-- Taking out a field that is listed once builds the object of the others. -/
theorem remove_mkObject_cons {fields : List (String × Json)} {key : String} (value : Json)
    (h : key ∉ fields.map Prod.fst) :
    (mkObject ((key, value) :: fields)).remove key = some (value, mkObject fields) := by
  have hget := SortedMap.get?_ofList_cons (v := value) h
  obtain ⟨m, hm, rfl⟩ := Option.map_eq_some_iff.mp hget
  have herase := congrArg SortedMap.entries (SortedMap.erase_ofList ((key, m.2) :: fields) key)
  have hfilter : ((key, m.2) :: fields).filter (fun f => f.1 ≠ key) = fields := by
    rw [List.filter_cons_of_neg (by simp), List.filter_eq_self]
    intro f hf
    simpa using fun heq : f.1 = key => h (heq ▸ List.mem_map_of_mem hf)
  rw [hfilter] at herase
  rw [mkObject, remove, hm, Option.map_some, mkObject, ← herase]
  rfl

/-- The member of an object. -/
def field? (members : List (String × Json)) (key : String) : Option Json :=
  (members.find? fun m => m.1 = key).map Prod.snd

def asObject : Json → Option (List (String × Json))
  | .object members => some members
  | _ => none

def asStr : Json → Option String
  | .string s => some s
  | _ => none

def asU64 : Json → Option Machine.U64
  | .number (.posInt n) => Machine.toWidth 64 n
  | _ => none

def asArray : Json → Option (List Json)
  | .array elements => some elements
  | _ => none

/-- Equal objects agree on every field listed once in both. -/
theorem mkObject_inj_field {fields fields' : List (String × Json)}
    (h : mkObject fields = mkObject fields') (hnodup : (fields.map Prod.fst).Nodup)
    (hnodup' : (fields'.map Prod.fst).Nodup) {key : String} {value value' : Json}
    (hmem : (key, value) ∈ fields) (hmem' : (key, value') ∈ fields') : value = value' := by
  have hentries : (SortedMap.ofList fields).entries = (SortedMap.ofList fields').entries := by
    injection h
  have hget := (SortedMap.get?_ofList hnodup).mpr hmem
  have hget' := (SortedMap.get?_ofList hnodup').mpr hmem'
  rw [SortedMap.get?, hentries] at hget
  exact Option.some.inj (hget.symm.trans hget')

end Json

/-- Types that serialise to JSON. -/
class ToJson (α : Type) where
  toJson : α → Json

export ToJson (toJson)

instance : ToJson String := ⟨Json.string⟩

instance : ToJson Bool := ⟨Json.bool⟩

instance : ToJson ℕ := ⟨fun n => .number (.posInt n)⟩

instance {n : ℕ} : ToJson (Fin n) := ⟨fun k => .number (.posInt k)⟩

instance {α : Type} [ToJson α] : ToJson (List α) := ⟨fun xs => .array (xs.map toJson)⟩

instance {α : Type} [ToJson α] : ToJson (Option α) :=
  ⟨fun o => o.elim .null toJson⟩

instance {α : Type} [ToJson α] : ToJson (SortedMap String α) :=
  ⟨fun m => .object (m.entries.map fun e => (e.1, toJson e.2))⟩
