import LivefireRag.Lib.Fallible
import LivefireRag.Lib.Json
import LivefireRag.Lib.Machine
import LivefireRag.Lib.Text

/-!
# The vocabulary of the pipeline contracts

Errors, digests, safe paths, component references and the dataset identity, with
the checks every contract of the pipeline is made of.

A digest and a safe path are subtypes: their constructors in the source are the
only way to obtain one, so a contract that holds one holds a well-formed one.
Identity is content-bound. `componentDigest` hashes the canonical JSON of a
record without its own `component_sha256`, so a record can carry its digest.

What the crate takes from other crates is a parameter, `Primitives`.
-/

namespace LivefireRag.Pipeline

open Fallible Machine

/-- The failures of the pipeline that its contracts can raise. -/
inductive PipelineError where
  /-- A contract does not hold; the text names it. -/
  | invalid (contract : String)
  /-- Reading JSON failed. -/
  | json (message : String)
  /-- The tokenizer backend failed. -/
  | tokenizer (message : String)
  /-- An index or an arithmetic operation left its range, which aborts the run. -/
  | aborted
  deriving DecidableEq

abbrev Result := Except PipelineError

def preparedCorpusSchema := "livefire.rag.prepared-corpus/1"
def embeddingPlanV2Schema := "livefire.rag.embedding-plan/2"
def vectorReceiptSchema := "livefire.rag.vector-result-receipt/1"
def derivedVectorReceiptSchema := "livefire.rag.vector-result-receipt/2"
def resultSetSchema := "livefire.rag.embedding-result-set/1"
def testResultSetSchema := "livefire.rag.embedding-result-set/2"
def derivedResultSetSchema := "livefire.rag.embedding-result-set/3"
def testVectorExecutorId := "livefire.rag.embedding-executor.deterministic-test-vectors"
def derivedVectorExecutorId := "livefire.rag.embedding-executor.prefix-l2-derivation"
def prefixL2DerivationPolicy := "prefix_then_l2_normalize_v1"

/-- The largest integer every JSON reader represents exactly, `2 ^ 53 - 1`. -/
def maxSafeJsonInteger : ℕ := 9007199254740991

/-! ### Digests and paths -/

/-- A lowercase hexadecimal digit. -/
def IsHexDigit (c : Char) : Prop := c.isDigit ∨ 'a' ≤ c ∧ c ≤ 'f'

instance : DecidablePred IsHexDigit := fun c => by unfold IsHexDigit; infer_instance

/-- The texts `Digest::new` accepts. Every accepted byte is an ASCII character,
so lengths are counted in characters. -/
def IsDigest (value : String) : Prop :=
  value.toList.length = 64 ∧ ∀ c ∈ value.toList, IsHexDigit c

instance : DecidablePred IsDigest := fun value => by unfold IsDigest; infer_instance

/-- A canonical lowercase SHA-256 value. -/
abbrev Digest := { value : String // IsDigest value }

theorem toNat_of_isHexDigit {c : Char} (h : IsHexDigit c) :
    48 ≤ c.toNat ∧ c.toNat ≤ 57 ∨ 97 ≤ c.toNat ∧ c.toNat ≤ 102 := by
  rcases h with h | ⟨hlow, hhigh⟩
  · simp only [Char.isDigit, ge_iff_le, Bool.and_eq_true, decide_eq_true_iff] at h
    exact .inl ⟨h.1, h.2⟩
  · exact .inr ⟨hlow, hhigh⟩

theorem Digest.ascii (digest : Digest) : ∀ c ∈ digest.val.toList, c.toNat ≤ 127 := by
  intro c hc
  have hrange := toNat_of_isHexDigit (digest.property.2 c hc)
  omega

theorem Digest.utf8ByteSize_eq (digest : Digest) : digest.val.utf8ByteSize = 64 := by
  have hsize := Text.utf8ByteSize_ofList digest.ascii
  rwa [String.ofList_toList, digest.property.1] at hsize

def Digest.new (value : String) : Result Digest :=
  if h : IsDigest value then .ok ⟨value, h⟩ else .error (.invalid "SHA-256 digest")

instance : ToJson Digest := ⟨fun digest => .string digest.val⟩

/-- The texts `SafeRelativePath::new` accepts. The check on the components of
the platform path that follows in the source rejects nothing more: an accepted
text is not absolute and each of its segments is a normal component. -/
def IsSafeRelativePath (value : String) : Prop :=
  value ≠ "" ∧ '\\' ∉ value.toList ∧ '\x00' ∉ value.toList ∧ ':' ∉ value.toList ∧
    ∀ segment ∈ Text.split '/' value, segment ≠ "" ∧ segment ≠ "." ∧ segment ≠ ".."

instance : DecidablePred IsSafeRelativePath := fun value => by
  unfold IsSafeRelativePath; infer_instance

/-- A slash-separated path that cannot escape its artifact root. -/
abbrev SafeRelativePath := { value : String // IsSafeRelativePath value }

def SafeRelativePath.new (value : String) : Result SafeRelativePath :=
  if h : IsSafeRelativePath value then .ok ⟨value, h⟩
  else .error (.invalid "safe relative path")

instance : ToJson SafeRelativePath := ⟨fun path => .string path.val⟩

@[simp] theorem SafeRelativePath.new_eq_ok {value : String} {path : SafeRelativePath} :
    SafeRelativePath.new value = .ok path ↔ path.val = value := by
  unfold SafeRelativePath.new
  split
  · next h => simp [Subtype.ext_iff, eq_comm]
  · next h =>
    simp only [reduceCtorEq, false_iff]
    rintro rfl
    exact h path.property

/-- A character that a segment of a safe path may contain anywhere. -/
def IsSegmentChar (c : Char) : Prop := c ≠ '\\' ∧ c ≠ '\x00' ∧ c ≠ ':' ∧ c ≠ '/'

instance : DecidablePred IsSegmentChar := fun c => by unfold IsSegmentChar; infer_instance

theorem IsHexDigit.isSegmentChar {c : Char} (h : IsHexDigit c) : IsSegmentChar c := by
  refine ⟨?_, ?_, ?_, ?_⟩ <;>
    · rintro rfl
      revert h
      decide

/-- A file named after a digest, in a directory. -/
theorem isSafeRelativePath_digest (directory : List Char) (suffix : String)
    (hdirectory : ∀ c ∈ directory, IsSegmentChar c)
    (hname : directory ≠ [] ∧ directory ≠ ['.'] ∧ directory ≠ ['.', '.'])
    (hsuffix : ∀ c ∈ suffix.toList, IsSegmentChar c) (digest : Digest) :
    IsSafeRelativePath (String.ofList directory ++ "/" ++ digest.val ++ suffix) := by
  obtain ⟨hlength, hhex⟩ := digest.property
  have hfile : ∀ c ∈ digest.val.toList ++ suffix.toList, IsSegmentChar c := by
    intro c hc
    rcases List.mem_append.mp hc with hc | hc
    · exact (hhex c hc).isSegmentChar
    · exact hsuffix c hc
  have htext : String.ofList directory ++ "/" ++ digest.val ++ suffix =
      String.ofList (directory ++ '/' :: (digest.val.toList ++ suffix.toList)) := by
    apply String.toList_injective
    simp
  have hsplit : Text.split '/' (String.ofList directory ++ "/" ++ digest.val ++ suffix) =
      [String.ofList directory, String.ofList (digest.val.toList ++ suffix.toList)] := by
    rw [htext, Text.split_append fun hc => (hdirectory _ hc).2.2.2 rfl,
      Text.split_of_notMem fun hc => (hfile _ hc).2.2.2 rfl]
  have hchars : ∀ c ∈ (String.ofList directory ++ "/" ++ digest.val ++ suffix).toList,
      c = '/' ∨ IsSegmentChar c := by
    intro c hc
    rw [htext, String.toList_ofList, List.mem_append, List.mem_cons] at hc
    rcases hc with hc | rfl | hc
    · exact Or.inr (hdirectory c hc)
    · exact Or.inl rfl
    · exact Or.inr (hfile c hc)
  refine ⟨?_, ?_, ?_, ?_, ?_⟩
  · rw [htext]
    intro hempty
    have hnil := congrArg String.toList hempty
    simp at hnil
  · exact fun hc => (hchars _ hc).elim (by decide) fun h => h.1 rfl
  · exact fun hc => (hchars _ hc).elim (by decide) fun h => h.2.1 rfl
  · exact fun hc => (hchars _ hc).elim (by decide) fun h => h.2.2.1 rfl
  · rw [hsplit]
    have hne : ∀ cs ds : List Char, cs ≠ ds → String.ofList cs ≠ String.ofList ds :=
      fun cs ds h heq => h (String.ofList_injective heq)
    have hlong : ∀ ds : List Char, ds.length ≤ 2 →
        digest.val.toList ++ suffix.toList ≠ ds := by
      rintro ds hds rfl
      rw [List.length_append] at hds
      omega
    intro segment hsegment
    simp only [List.mem_cons, List.not_mem_nil, or_false] at hsegment
    rcases hsegment with rfl | rfl
    · exact ⟨hne _ [] hname.1, hne _ ['.'] hname.2.1, hne _ ['.', '.'] hname.2.2⟩
    · exact ⟨hne _ [] (hlong _ (by decide)), hne _ ['.'] (hlong _ (by decide)),
        hne _ ['.', '.'] (hlong _ (by decide))⟩

theorem Digest.new_val (digest : Digest) : Digest.new digest.val = .ok digest := by
  rw [Digest.new, dif_pos digest.property]

/-! ### Checks on single values -/

def requireText (value : String) : Result Unit :=
  throwIf (value = "") (.invalid "non-empty text")

def requireSafeU64 (value : U64) : Result Unit :=
  throwIf (maxSafeJsonInteger < (value : ℕ)) (.invalid "RFC 8785 safe integer")

def requireSortedUnique (values : List String) : Result Unit :=
  throwIf ((∃ value ∈ values, value = "") ∨ ¬ values.IsChain (· < ·))
    (.invalid "sorted unique values")

@[simp] theorem requireSafeU64_eq_ok {value : U64} {u : Unit} :
    requireSafeU64 value = .ok u ↔ (value : ℕ) ≤ maxSafeJsonInteger := by
  rw [requireSafeU64, throwIf_eq_ok, not_lt]

@[simp] theorem requireText_eq_ok {value : String} {u : Unit} :
    requireText value = .ok u ↔ value ≠ "" := throwIf_eq_ok

theorem requireSortedUnique_eq_ok {values : List String} {u : Unit} :
    requireSortedUnique values = .ok u ↔
      (∀ value ∈ values, value ≠ "") ∧ values.Pairwise (· < ·) := by
  rw [requireSortedUnique, throwIf_eq_ok, not_or, not_not, List.isChain_iff_pairwise]
  simp only [not_exists, not_and]

/-! ### Content-bound identity -/

/-- What the crate takes from other crates: the hash function, the canonical
JSON writer (a JSON value always has a canonical form) and the JSON reader. -/
structure Primitives where
  sha256 : List UInt8 → Digest
  canonicalJsonBytes : Json → List UInt8
  parseJson : String → Except String Json

variable (prims : Primitives)

def digestBytes (bytes : List UInt8) : Digest := prims.sha256 bytes

def canonicalDigest (value : Json) : Digest := digestBytes prims (prims.canonicalJsonBytes value)

/-- The digest of a record without its own `component_sha256`. -/
def componentDigest (value : Json) : Result Digest :=
  match value with
  | .object members => do
    let (_, rest) ← orThrow ((Json.object members).remove "component_sha256")
      (.invalid "component digest field")
    return canonicalDigest prims rest
  | _ => .error (.invalid "component object")

/-- The serialised form of a record that carries its own digest. -/
def sealedObject (componentSha256 : Digest) (body : List (String × Json)) : Json :=
  .mkObject (("component_sha256", toJson componentSha256) :: body)

/-- Such a record is identified by the digest of its other fields. -/
theorem componentDigest_sealedObject {digest : Digest} {body : List (String × Json)}
    (h : "component_sha256" ∉ body.map Prod.fst) :
    componentDigest prims (sealedObject digest body) =
      .ok (canonicalDigest prims (.mkObject body)) := by
  have hremove := Json.remove_mkObject_cons (toJson digest) h
  rw [Json.mkObject] at hremove
  rw [sealedObject, Json.mkObject, componentDigest, hremove]
  rfl

def validateCanonicalJson (text : String) : Result Unit := do
  let value ← (prims.parseJson text).mapError .json
  let canonical ← orThrow (Text.fromUtf8 (prims.canonicalJsonBytes value))
    (.invalid "canonical JSON UTF-8")
  throwIf (canonical ≠ text) (.invalid "canonical JSON text")

/-! ### Components and datasets -/

structure ComponentRef where
  id : String
  version : String
  sha256 : Digest
  deriving DecidableEq

def ComponentRef.fields (component : ComponentRef) : List (String × Json) :=
  [("id", toJson component.id), ("version", toJson component.version),
    ("sha256", toJson component.sha256)]

instance : ToJson ComponentRef := ⟨fun component => .mkObject component.fields⟩

def ComponentRef.validate (component : ComponentRef) : Result Unit := do
  requireText component.id
  requireText component.version

structure DatasetIdentity where
  id : String
  version : String
  sourceSnapshot : ComponentRef
  mapping : ComponentRef
  sourceAdmission : List ComponentRef
  includedRelations : List String
  excludedRelations : List String
  structuredOnlyRelations : List String
  deriving DecidableEq

-- `source_admission` is omitted when it is empty
instance : ToJson DatasetIdentity := ⟨fun dataset => .mkObject <|
  [("id", toJson dataset.id), ("version", toJson dataset.version),
    ("source_snapshot", toJson dataset.sourceSnapshot), ("mapping", toJson dataset.mapping)] ++
  (if dataset.sourceAdmission = [] then []
    else [("source_admission", toJson dataset.sourceAdmission)]) ++
  [("included_relations", toJson dataset.includedRelations),
    ("excluded_relations", toJson dataset.excludedRelations),
    ("structured_only_relations", toJson dataset.structuredOnlyRelations)]⟩

/-- One relation list of a dataset: it is sorted, and no relation of it has been
seen in an earlier list. -/
def validateRelationScope (all relations : List String) : Result (List String) := do
  requireSortedUnique relations
  relations.foldlM (fun all relation => do
    throwIf (relation ∈ all) (.invalid "relation scopes overlap")
    return relation :: all) all

def DatasetIdentity.validate (dataset : DatasetIdentity) : Result Unit := do
  requireText dataset.id
  requireText dataset.version
  dataset.sourceSnapshot.validate
  dataset.mapping.validate
  forM dataset.sourceAdmission ComponentRef.validate
  throwIf (¬ dataset.sourceAdmission.IsChain (·.id < ·.id))
    (.invalid "source admission components must be sorted and unique by id")
  let _ ← [dataset.includedRelations, dataset.excludedRelations,
    dataset.structuredOnlyRelations].foldlM validateRelationScope []

/-- A valid dataset has a name, and its relations have names in ascending order. -/
theorem DatasetIdentity.validate_accepted {dataset : DatasetIdentity}
    (h : dataset.validate = .ok ()) :
    requireText dataset.id = .ok () ∧ requireSortedUnique dataset.includedRelations = .ok () := by
  simp only [DatasetIdentity.validate, bind_eq_ok, exists_unit, List.foldlM_cons,
    validateRelationScope] at h
  obtain ⟨hid, -, -, -, -, -, scan, ⟨seen, ⟨hsorted, -⟩, -⟩, -⟩ := h
  exact ⟨hid, hsorted⟩

end LivefireRag.Pipeline
