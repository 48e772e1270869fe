import LivefireRag.Lib.Json

/-!
# Reading JSON values

Comparison and addressing of JSON values as the reader's library has them: two
numbers of floating point are equal when their values are, so the two zeros are, and a
missing member reads as `null`.
-/

namespace Json

/-- The two zeros are equal. A number that is not a number is never read. -/
def sameFloat (a b : Machine.U64) : Bool :=
  a = b ∨ (a : ℕ) % 2 ^ 63 = 0 ∧ (b : ℕ) % 2 ^ 63 = 0

def sameNumber : JsonNumber → JsonNumber → Bool
  | .posInt a, .posInt b => a = b
  | .negInt a, .negInt b => a = b
  | .float a, .float b => sameFloat a b
  | _, _ => false

mutual

/-- Equality of values. -/
def same : Json → Json → Bool
  | .null, .null => true
  | .bool a, .bool b => a = b
  | .number a, .number b => sameNumber a b
  | .string a, .string b => a = b
  | .array as, .array bs => sameElements as bs
  | .object as, .object bs => sameMembers as bs
  | _, _ => false

def sameElements : List Json → List Json → Bool
  | [], [] => true
  | a :: as, b :: bs => same a b && sameElements as bs
  | _, _ => false

def sameMembers : List (String × Json) → List (String × Json) → Bool
  | [], [] => true
  | (key, a) :: as, (key', b) :: bs => key = key' && same a b && sameMembers as bs
  | _, _ => false

end

instance : BEq Json := ⟨same⟩

mutual

/-- Whether two values are one and the same. -/
def identical : Json → Json → Bool
  | .null, .null => true
  | .bool a, .bool b => a = b
  | .number a, .number b => a = b
  | .string a, .string b => a = b
  | .array as, .array bs => identicalElements as bs
  | .object as, .object bs => identicalMembers as bs
  | _, _ => false

def identicalElements : List Json → List Json → Bool
  | [], [] => true
  | a :: as, b :: bs => identical a b && identicalElements as bs
  | _, _ => false

def identicalMembers : List (String × Json) → List (String × Json) → Bool
  | [], [] => true
  | (key, a) :: as, (key', b) :: bs => key = key' && identical a b && identicalMembers as bs
  | _, _ => false

end

mutual

theorem identical_iff : ∀ a b : Json, identical a b = true ↔ a = b
  | .null, b => by cases b <;> simp [identical]
  | .bool _, b => by cases b <;> simp [identical]
  | .number _, b => by cases b <;> simp [identical]
  | .string _, b => by cases b <;> simp [identical]
  | .array as, b => by cases b <;> simp [identical, identicalElements_iff as]
  | .object as, b => by cases b <;> simp [identical, identicalMembers_iff as]

theorem identicalElements_iff : ∀ as bs : List Json, identicalElements as bs = true ↔ as = bs
  | [], bs => by cases bs <;> simp [identicalElements]
  | a :: as, bs => by cases bs <;> simp [identicalElements, identical_iff a, identicalElements_iff as]

theorem identicalMembers_iff : ∀ as bs : List (String × Json), identicalMembers as bs = true ↔ as = bs
  | [], bs => by cases bs <;> simp [identicalMembers]
  | (key, a) :: as, bs => by
    cases bs <;> simp [identicalMembers, identical_iff a, identicalMembers_iff as, Prod.ext_iff, and_assoc]

end

instance : DecidableEq Json := fun a b => decidable_of_iff (identical a b) (identical_iff a b)

def asBool : Json → Option Bool
  | .bool b => some b
  | _ => none

/-- The member of a value that may be no object. -/
def get? (value : Json) (key : String) : Option Json := value.asObject.bind fun ms => field? ms key

/-- Reading a missing member gives `null`. -/
def member (value : Json) (key : String) : Json := (value.get? key).getD .null

/-- A position written without a sign and without leading zeros. -/
def parseIndex (token : List Char) : Option ℕ :=
  if token = [] ∨ ¬ token.all Char.isDigit ∨ (token.head? = some '0' ∧ token ≠ ['0']) then none
  else some (token.foldl (fun n c => 10 * n + (c.toNat - '0'.toNat)) 0)

/-- The value at a path of keys and positions. -/
def pointer : List String → Json → Option Json
  | [], value => some value
  | token :: path, .object members => (field? members token).bind (pointer path)
  | token :: path, .array elements =>
    (parseIndex token.toList).bind fun index => elements[index]?.bind (pointer path)
  | _ :: _, _ => none

example : (pointer ["a", "1"] (mkObject [("a", .array [.null, .string "b"])])).bind asStr =
    some "b" := by decide

theorem same_string {value : Json} {s : String} : value == .string s ↔ value = .string s := by
  show same value (.string s) = true ↔ _
  cases value <;> simp [same]

theorem sameMembers_of_strings {members others : List (String × Json)}
    (h : ∀ m ∈ members, ∃ s, m.2 = .string s) :
    sameMembers others members = true ↔ others = members := by
  induction members generalizing others with
  | nil => cases others <;> simp [sameMembers]
  | cons m members ih =>
    obtain ⟨⟨s, hs⟩, hrest⟩ := List.forall_mem_cons.mp h
    obtain ⟨key, value⟩ := m
    obtain rfl : value = .string s := hs
    cases others with
    | nil => simp [sameMembers]
    | cons other others =>
      have hsame : same other.2 (.string s) = true ↔ other.2 = .string s := same_string
      simp only [sameMembers, Bool.and_eq_true, decide_eq_true_eq, ih hrest, hsame,
        List.cons.injEq, Prod.ext_iff]

/-- An object of texts equals itself alone. -/
theorem beq_object_of_strings {value : Json} {members : List (String × Json)}
    (h : ∀ m ∈ members, ∃ s, m.2 = .string s) :
    value == .object members ↔ value = .object members := by
  show same value (.object members) = true ↔ _
  cases value with
  | object others => simp only [same, sameMembers_of_strings h, object.injEq]
  | _ => simp [same]

/-- An object has the fields it was made of. -/
theorem get?_mkObject {fields : List (String × Json)} {key : String} {value : Json}
    (hnodup : (fields.map Prod.fst).Nodup) (hmem : (key, value) ∈ fields) :
    (mkObject fields).get? key = some value :=
  (SortedMap.get?_ofList hnodup).mpr hmem

/-- Taking a member out leaves the others. -/
theorem get?_of_remove {value taken rest : Json} {key key' : String}
    (h : value.remove key = some (taken, rest)) (hne : key' ≠ key) :
    rest.get? key' = value.get? key' := by
  cases value with
  | object members =>
    obtain ⟨m, -, heq⟩ := Option.map_eq_some_iff.mp h
    obtain ⟨-, rfl⟩ := Prod.mk.inj heq
    show ((members.filter fun m => m.1 ≠ key).find? fun m => m.1 = key').map Prod.snd =
      (members.find? fun m => m.1 = key').map Prod.snd
    rw [List.find?_filter]
    congr 2
    funext m
    by_cases hm : m.1 = key'
    · simp [hm, hne]
    · simp [hm]
  | _ => cases h

/-- A text is no missing member. -/
theorem member_eq_string {value : Json} {key s : String} :
    value.member key = .string s ↔ value.get? key = some (.string s) := by
  rw [member]
  cases value.get? key <;> simp

/-- The members of an object are among the fields it was made of. -/
theorem mem_of_mem_mkObject {fields members : List (String × Json)}
    (h : mkObject fields = .object members) {m : String × Json} (hm : m ∈ members) :
    m ∈ fields := by
  obtain rfl : (SortedMap.ofList fields).entries = members := by injection h
  induction fields using List.reverseRecOn with
  | nil => cases hm
  | append_singleton fields field ih =>
    rw [SortedMap.ofList_concat, SortedMap.mem_insert_entries] at hm
    obtain rfl | ⟨hm, -⟩ := hm
    · exact List.mem_append_right _ (List.mem_singleton_self _)
    · exact List.mem_append_left _ (ih rfl hm)

end Json
