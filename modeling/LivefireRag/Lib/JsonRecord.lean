import Mathlib.Data.List.Perm.Subperm
import LivefireRag.Lib.Json

/-!
# Records in JSON

A JSON text as it is written: `Json` again, but the members of an object stand in the
order of the text and a key may occur more than once. Two readers take a record from it.

* The untyped one turns the text into a value first. Objects become ordered maps, so
  the last member of a key replaces the ones before it (`normalize`).
* The derived one reads field by field (`recordFields`). It refuses a key that it does
  not know and a key that it has seen, and it takes an array of the right length for
  the fields in their order.

`looseFields` accepts what either does. `recordFields_eq_some` and
`normalize_fields_iff` say what each of the two leaves out of it.
-/

namespace Json

mutual

/-- The value of a text: of several members with one key the last one stays. -/
def normalize : Json → Json
  | .array elements => .array (normalizeElements elements)
  | .object members => .mkObject (normalizeMembers members)
  | value => value

def normalizeElements : List Json → List Json
  | [] => []
  | element :: elements => normalize element :: normalizeElements elements

def normalizeMembers : List (String × Json) → List (String × Json)
  | [] => []
  | (key, value) :: members => (key, normalize value) :: normalizeMembers members

end

theorem normalizeElements_eq_map (elements : List Json) :
    normalizeElements elements = elements.map normalize := by
  induction elements with
  | nil => rfl
  | cons element elements ih => rw [normalizeElements, ih, List.map_cons]

theorem normalizeMembers_eq_map (members : List (String × Json)) :
    normalizeMembers members = members.map fun member => (member.1, normalize member.2) := by
  induction members with
  | nil => rfl
  | cons member members ih => rw [normalizeMembers, ih, List.map_cons]

/-- Texts and numbers are read alike before and after. -/
@[simp] theorem asStr_normalize (value : Json) : (normalize value).asStr = value.asStr := by
  cases value <;> rfl

@[simp] theorem asU64_normalize (value : Json) : (normalize value).asU64 = value.asU64 := by
  cases value <;> rfl

theorem asArray_normalize (value : Json) :
    (normalize value).asArray = value.asArray.map (List.map normalize) := by
  cases value with
  | array elements => exact congrArg some (normalizeElements_eq_map elements)
  | _ => rfl

/-! ### The last member of a key -/

/-- The last member with a key. -/
def lastField? (members : List (String × Json)) (key : String) : Option Json :=
  field? members.reverse key

theorem lastField?_append_singleton (members : List (String × Json)) (member : String × Json)
    (key : String) : lastField? (members ++ [member]) key =
      if member.1 = key then some member.2 else lastField? members key := by
  rw [lastField?, List.reverse_append, List.reverse_singleton, List.singleton_append, field?,
    List.find?_cons]
  by_cases h : member.1 = key
  · simp [h]
  · simp [h, lastField?, field?]

/-- An ordered map keeps the last member of each key. -/
theorem field?_mkObject (members : List (String × Json)) (key : String) :
    field? (SortedMap.ofList members).entries key = lastField? members key := by
  show (SortedMap.ofList members).get? key = _
  induction members using List.reverseRecOn with
  | nil => rfl
  | append_singleton members member ih =>
    rw [SortedMap.ofList_concat, SortedMap.get?_insert, lastField?_append_singleton, ih]
    simp only [eq_comm]

theorem lastField?_normalize (members : List (String × Json)) (key : String) :
    lastField? (normalizeMembers members) key = (lastField? members key).map normalize := by
  rw [normalizeMembers_eq_map]
  induction members using List.reverseRecOn with
  | nil => rfl
  | append_singleton members member ih =>
    rw [List.map_append, List.map_singleton, lastField?_append_singleton,
      lastField?_append_singleton, ih]
    split <;> rfl

/-- Where no key repeats, the first member of a key is the last one. -/
theorem lastField?_of_nodup {members : List (String × Json)} (h : (members.map Prod.fst).Nodup)
    (key : String) : lastField? members key = field? members key := by
  induction members with
  | nil => rfl
  | cons member members ih =>
    rw [List.map_cons, List.nodup_cons] at h
    rw [field?, List.find?_cons]
    by_cases hkey : member.1 = key
    · -- no later member has the key
      have hnone : members.reverse.find? (fun m => m.1 = key) = none := by
        rw [List.find?_eq_none]
        intro other hother heq
        rw [decide_eq_true_eq] at heq
        refine h.1 ?_
        rw [hkey, ← heq]
        exact List.mem_map_of_mem (List.mem_reverse.mp hother)
      rw [lastField?, field?, List.reverse_cons, List.find?_append, hnone]
      simp [hkey]
    · have hrest := ih h.2
      rw [lastField?, field?] at hrest
      rw [lastField?, field?, List.reverse_cons, List.find?_append]
      simp only [hkey, decide_false, List.find?_cons, List.find?_nil, Option.or_none]
      exact hrest

theorem mem_keys_of_lastField? {members : List (String × Json)} {key : String} {value : Json}
    (h : lastField? members key = some value) : key ∈ members.map Prod.fst := by
  obtain ⟨member, hmember, -⟩ := Option.map_eq_some_iff.mp h
  have hkey := List.find?_some hmember
  rw [decide_eq_true_eq] at hkey
  rw [← hkey]
  exact List.mem_map_of_mem (List.mem_reverse.mp (List.mem_of_find?_eq_some hmember))

/-! ### Fields -/

/-- The values of the fields of a record, in the order of its declaration. -/
def recordFields (names : List String) : Json → Option (List Json)
  | .object members =>
    if (members.map Prod.fst).Nodup ∧ ∀ key ∈ members.map Prod.fst, key ∈ names then
      names.mapM (field? members)
    else none
  | .array elements => if elements.length = names.length then some elements else none
  | _ => none

/-- The same, where a later member of a key replaces an earlier one. -/
def looseFields (names : List String) : Json → Option (List Json)
  | .object members =>
    if ∀ key ∈ members.map Prod.fst, key ∈ names then names.mapM (lastField? members) else none
  | .array elements => if elements.length = names.length then some elements else none
  | _ => none

/-- An object with more than one member of some key. -/
def RepeatsKey : Json → Prop
  | .object members => ¬ (members.map Prod.fst).Nodup
  | _ => False

def IsArray : Json → Prop
  | .array _ => True
  | _ => False

/-- The derived reader leaves out the objects that repeat a key. -/
theorem recordFields_eq_some {names : List String} {value : Json} {fields : List Json} :
    recordFields names value = some fields ↔
      looseFields names value = some fields ∧ ¬ RepeatsKey value := by
  cases value with
  | object members =>
    by_cases hnodup : (members.map Prod.fst).Nodup
    · have hlast : lastField? members = field? members := funext (lastField?_of_nodup hnodup)
      simp [recordFields, looseFields, RepeatsKey, hnodup, hlast]
    · simp [recordFields, RepeatsKey, hnodup]
  | array elements => simp [recordFields, looseFields, RepeatsKey]
  | _ => simp [recordFields, looseFields]

theorem mapM_option_eq_some {α β : Type} {f : α → Option β} {xs : List α} {ys : List β} :
    xs.mapM f = some ys ↔ List.Forall₂ (fun x y => f x = some y) xs ys := by
  induction xs generalizing ys with
  | nil => simp [eq_comm]
  | cons x xs ih =>
    simp only [List.mapM_cons, Option.bind_eq_bind, Option.bind_eq_some_iff, Option.pure_def,
      Option.some.injEq, List.forall₂_cons_left_iff, ih]
    constructor
    · rintro ⟨y, hy, zs, hzs, rfl⟩
      exact ⟨y, zs, hy, hzs, rfl⟩
    · rintro ⟨y, zs, hy, hzs, rfl⟩
      exact ⟨y, hy, zs, hzs, rfl⟩

/-- Lookups whose results are mapped. -/
theorem forall₂_map_eq_some {α β γ : Type} {g : α → Option β} {f : β → γ} {xs : List α}
    {zs : List γ} : List.Forall₂ (fun x z => (g x).map f = some z) xs zs ↔
      ∃ ys, List.Forall₂ (fun x y => g x = some y) xs ys ∧ zs = ys.map f := by
  constructor
  · intro h
    induction h with
    | nil => exact ⟨[], .nil, rfl⟩
    | cons hhead _ ih =>
      obtain ⟨ys, hys, rfl⟩ := ih
      obtain ⟨y, hy, rfl⟩ := Option.map_eq_some_iff.mp hhead
      exact ⟨y :: ys, .cons hy hys, rfl⟩
  · rintro ⟨ys, hys, rfl⟩
    rw [List.forall₂_map_right_iff]
    exact hys.imp fun x y hy => by rw [hy, Option.map_some]

/-- With all fields present, an ordered map has no other key exactly when it has as
many members as there are fields. -/
theorem size_ofList_eq_iff {names : List String} (hnames : names.Nodup)
    {members : List (String × Json)} (hpresent : ∀ name ∈ names, name ∈ members.map Prod.fst) :
    (SortedMap.ofList members).entries.length = names.length ↔
      ∀ key ∈ members.map Prod.fst, key ∈ names := by
  have hkeys := (SortedMap.ofList members).nodup_keys
  have hsubset : names ⊆ (SortedMap.ofList members).keys := fun name hname =>
    SortedMap.mem_keys_ofList.mpr (hpresent name hname)
  have hlength : (SortedMap.ofList members).entries.length =
      (SortedMap.ofList members).keys.length := (List.length_map _).symm
  rw [hlength]
  constructor
  · intro heq key hkey
    have hperm := (List.subperm_of_subset hnames hsubset).perm_of_length_le heq.le
    exact hperm.mem_iff.mpr (SortedMap.mem_keys_ofList.mpr hkey)
  · intro hall
    have hsubset' : (SortedMap.ofList members).keys ⊆ names := fun key hkey =>
      hall key (SortedMap.mem_keys_ofList.mp hkey)
    exact le_antisymm (List.subperm_of_subset hkeys hsubset').length_le
      (List.subperm_of_subset hnames hsubset).length_le

/-- The untyped reader leaves out arrays: an object of the value has as many members as
there are fields and a member for each of them when the text does, loosely read. -/
theorem normalize_fields_iff {names : List String} (hnames : names.Nodup) {value : Json}
    {fields : List Json} :
    (∃ members, (normalize value).asObject = some members ∧
        members.length = names.length ∧
        List.Forall₂ (fun name field => field? members name = some field) names fields) ↔
      ∃ written, looseFields names value = some written ∧ fields = written.map normalize ∧
        ¬ IsArray value := by
  cases value with
  | object members =>
    have hfield : ∀ name, field? (SortedMap.ofList (normalizeMembers members)).entries name =
        (lastField? members name).map normalize := fun name => by
      rw [field?_mkObject, lastField?_normalize]
    have hkeys : (normalizeMembers members).map Prod.fst = members.map Prod.fst := by
      rw [normalizeMembers_eq_map, List.map_map]
      rfl
    have hpresent : ∀ {written : List Json},
        List.Forall₂ (fun name field => lastField? members name = some field) names written →
          ∀ name ∈ names, name ∈ members.map Prod.fst := by
      intro written h name hname
      obtain ⟨i, hi, rfl⟩ := List.mem_iff_getElem.mp hname
      exact mem_keys_of_lastField? (h.get hi (h.length_eq ▸ hi))
    constructor
    · rintro ⟨entries, hentries, hlength, hfields⟩
      obtain rfl : (SortedMap.ofList (normalizeMembers members)).entries = entries :=
        Option.some.inj hentries
      simp only [hfield] at hfields
      obtain ⟨written, hwritten, rfl⟩ := forall₂_map_eq_some.mp hfields
      have hsize := (@size_ofList_eq_iff names hnames (normalizeMembers members)
        (by rw [hkeys]; exact hpresent hwritten)).mp hlength
      rw [hkeys] at hsize
      refine ⟨written, ?_, rfl, fun h => h⟩
      rw [looseFields, if_pos hsize]
      exact mapM_option_eq_some.mpr hwritten
    · rintro ⟨written, hwritten, rfl, -⟩
      rw [looseFields] at hwritten
      split at hwritten
      · next hall =>
        have hfields := mapM_option_eq_some.mp hwritten
        refine ⟨_, rfl, ?_, ?_⟩
        · refine (size_ofList_eq_iff hnames (by rw [hkeys]; exact hpresent hfields)).mpr ?_
          rw [hkeys]
          exact hall
        · simp only [hfield]
          exact forall₂_map_eq_some.mpr ⟨written, hfields, rfl⟩
      · cases hwritten
  | array elements => simp [normalize, asObject, IsArray]
  | _ => simp [normalize, asObject, looseFields]

end Json
