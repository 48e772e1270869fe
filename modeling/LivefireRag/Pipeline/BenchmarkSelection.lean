import Mathlib.Data.List.ProdSigma
import LivefireRag.Lib.Staged
import LivefireRag.Lib.Seen
import LivefireRag.Pipeline.PlanTiling

/-!
# Benchmark selection

Three nested sets of benchmark documents are chosen from a list of candidates. A
policy divides the candidates into cells, one for each relation and stratum of text
lengths, and says how many of each cell every target holds. The candidates of a cell
are ranked by a digest of what they are.

`selectBenchmarkDocuments_eq` reads the selection as a staged selection from the
ranked cells; `selectBenchmarkDocuments_spec` says that it does not depend on the
order of the candidates, holds the first of every cell, passes the manifest's own
checks, and fails for want of capacity exactly when some cell is too small.
-/

namespace LivefireRag.Pipeline

open Fallible Machine Ranking Seen

/-! ### Policies -/

def standardBenchmarkSizes : List U64 := [512, 2000, 10000]
def policySchema := "livefire.rag.benchmark-selection-policy/1"
def selectionKeyDomain := "livefire.rag.benchmark-selection-key/1"
def candidateUniverseDomain : List UInt8 :=
  Text.utf8 "livefire.rag.benchmark-candidate-universe/1" ++ [0]

structure BenchmarkLengthStratum where
  id : String
  minimumUtf8Bytes : U64
  maximumUtf8Bytes : Option U64
  deriving DecidableEq

instance : ToJson BenchmarkLengthStratum := ⟨fun stratum => .mkObject
  [("id", toJson stratum.id), ("minimum_utf8_bytes", toJson stratum.minimumUtf8Bytes),
    ("maximum_utf8_bytes", toJson stratum.maximumUtf8Bytes)]⟩

structure BenchmarkStratumQuota where
  relation : String
  lengthStratum : String
  documents : U64
  deriving DecidableEq

instance : ToJson BenchmarkStratumQuota := ⟨fun quota => .mkObject
  [("relation", toJson quota.relation), ("length_stratum", toJson quota.lengthStratum),
    ("documents", toJson quota.documents)]⟩

structure BenchmarkTargetQuota where
  documentCount : U64
  quotas : List BenchmarkStratumQuota
  deriving DecidableEq

instance : ToJson BenchmarkTargetQuota := ⟨fun target => .mkObject
  [("document_count", toJson target.documentCount), ("quotas", toJson target.quotas)]⟩

structure BenchmarkSelectionPolicy where
  schemaVersion : String
  componentSha256 : Digest
  algorithm : String
  selectionSeed : String
  lengthStrata : List BenchmarkLengthStratum
  targets : List BenchmarkTargetQuota
  deriving DecidableEq

def BenchmarkSelectionPolicy.body (policy : BenchmarkSelectionPolicy) : List (String × Json) :=
  [("schema_version", toJson policy.schemaVersion), ("algorithm", toJson policy.algorithm),
    ("selection_seed", toJson policy.selectionSeed), ("length_strata", toJson policy.lengthStrata),
    ("targets", toJson policy.targets)]

instance : ToJson BenchmarkSelectionPolicy :=
  ⟨fun policy => sealedObject policy.componentSha256 policy.body⟩

/-- A relation and a stratum. -/
abbrev Cell := String ×ₗ String

def BenchmarkStratumQuota.cell (quota : BenchmarkStratumQuota) : Cell :=
  toLex (quota.relation, quota.lengthStratum)

/-- One stratum: the ids seen so far and where it has to begin. -/
def validateLengthStratum (count : ℕ) (state : List String × ℕ)
    (entry : BenchmarkLengthStratum × ℕ) : Result (List String × ℕ) := do
  let (stratum, index) := entry
  requireText stratum.id
  requireSafeU64 stratum.minimumUtf8Bytes
  let ids ← orThrow (insertNew state.1 stratum.id) (.invalid "benchmark length strata")
  throwIf ((stratum.minimumUtf8Bytes : ℕ) ≠ state.2) (.invalid "benchmark length strata")
  match stratum.maximumUtf8Bytes with
  | some maximum => do
    requireSafeU64 maximum
    throwIf (maximum < stratum.minimumUtf8Bytes ∨ index + 1 = count)
      (.invalid "benchmark length strata")
    let next ← orThrow (checkedAdd 64 maximum 1) (.invalid "benchmark length strata")
    return (ids, next)
  | none => do
    throwIf (index + 1 ≠ count) (.invalid "benchmark length strata")
    return (ids, state.2)

def validateLengthStrata (strata : List BenchmarkLengthStratum) : Result Unit := do
  throwIf (strata = []) (.invalid "benchmark length strata")
  let _ ← strata.zipIdx.foldlM (validateLengthStratum strata.length) ([], 0)

/-- The cells of a dataset, in the order of a target's quotas. -/
def expectedCells (dataset : DatasetIdentity) (strata : List BenchmarkLengthStratum) : List Cell :=
  dataset.includedRelations.flatMap fun relation =>
    strata.map fun stratum => toLex (relation, stratum.id)

/-- One quota: the quotas of the target before it, and the total of the target. -/
def validateQuota (state : SortedMap Cell U64 × ℕ) (quota : BenchmarkStratumQuota) :
    Result (SortedMap Cell U64 × ℕ) := do
  requireSafeU64 quota.documents
  throwIf (quota.documents < (state.1.get? quota.cell).getD 0) (.invalid "benchmark quota nesting")
  let total ← orThrow (checkedAdd 64 state.2 quota.documents) (.invalid "benchmark quota total")
  return (state.1.insert quota.cell quota.documents, total)

def validateTarget (cells : List Cell) (previous : SortedMap Cell U64)
    (entry : BenchmarkTargetQuota × U64) : Result (SortedMap Cell U64) := do
  let (target, expectedSize) := entry
  requireSafeU64 target.documentCount
  throwIf (target.documentCount ≠ expectedSize ∨ target.quotas.length ≠ cells.length)
    (.invalid "standard benchmark target sizes")
  throwIf (target.quotas.map BenchmarkStratumQuota.cell ≠ cells)
    (.invalid "benchmark quota coverage or order")
  let (previous, total) ← target.quotas.foldlM validateQuota (previous, 0)
  throwIf (total ≠ (expectedSize : ℕ)) (.invalid "benchmark quota total")
  return previous

variable (prims : Primitives)

def BenchmarkSelectionPolicy.validate (policy : BenchmarkSelectionPolicy)
    (dataset : DatasetIdentity) : Result Unit := do
  dataset.validate
  throwIf (policy.schemaVersion ≠ policySchema ∨ policy.algorithm ≠ "staged_stratified_sha256_v1")
    (.invalid "benchmark selection policy schema")
  requireText policy.selectionSeed
  validateLengthStrata policy.lengthStrata
  throwIf (policy.targets.length ≠ standardBenchmarkSizes.length)
    (.invalid "standard benchmark target sizes")
  let _ ← (policy.targets.zip standardBenchmarkSizes).foldlM
    (validateTarget (expectedCells dataset policy.lengthStrata)) SortedMap.empty
  let digest ← componentDigest prims (toJson policy)
  throwIf (policy.componentSha256 ≠ digest) (.invalid "benchmark policy component digest")

/-- A policy, identified by its own digest. -/
def BenchmarkSelectionPolicy.seal (policy : BenchmarkSelectionPolicy) (dataset : DatasetIdentity) :
    Result BenchmarkSelectionPolicy := do
  let digest ← componentDigest prims (toJson policy)
  let policy := { policy with componentSha256 := digest }
  policy.validate prims dataset
  return policy

theorem BenchmarkSelectionPolicy.componentDigest_eq (policy : BenchmarkSelectionPolicy) :
    componentDigest prims (toJson policy) = .ok (canonicalDigest prims (.mkObject policy.body)) := by
  show componentDigest prims (sealedObject _ policy.body) = _
  refine componentDigest_sealedObject _ ?_
  show "component_sha256" ∉ ["schema_version", "algorithm", "selection_seed", "length_strata",
    "targets"]
  decide

/-! ### Candidates -/

structure BenchmarkSelectionCandidate where
  documentId : String
  documentSha256 : Digest
  semanticTextSha256 : Digest
  semanticTextUtf8Bytes : U64
  primaryRelation : String
  deriving DecidableEq

structure BenchmarkSelectionRow where
  selectionRank : U64
  documentId : String
  documentSha256 : Digest
  semanticTextSha256 : Digest
  semanticTextUtf8Bytes : U64
  primaryRelation : String
  lengthStratum : String
  selectionKeySha256 : Digest
  deriving DecidableEq

def BenchmarkSelectionRow.cell (row : BenchmarkSelectionRow) : Cell :=
  toLex (row.primaryRelation, row.lengthStratum)

/-- What rows are sorted by. -/
def BenchmarkSelectionRow.key (row : BenchmarkSelectionRow) : String ×ₗ String :=
  toLex (row.selectionKeySha256.val, row.documentId)

def validateCandidate (dataset : DatasetIdentity) (candidate : BenchmarkSelectionCandidate) :
    Result Unit := do
  requireText candidate.documentId
  requireText candidate.primaryRelation
  requireSafeU64 candidate.semanticTextUtf8Bytes
  throwIf (candidate.semanticTextUtf8Bytes = 0 ∨
      candidate.primaryRelation ∉ dataset.includedRelations)
    (.invalid "benchmark candidate fields")

def BenchmarkLengthStratum.contains (stratum : BenchmarkLengthStratum) (bytes : U64) : Bool :=
  stratum.minimumUtf8Bytes ≤ bytes ∧ ∀ maximum ∈ stratum.maximumUtf8Bytes, bytes ≤ maximum

def findLengthStratum (strata : List BenchmarkLengthStratum) (bytes : U64) :
    Result BenchmarkLengthStratum :=
  orThrow (strata.find? (·.contains bytes)) (.invalid "semantic text length stratum")

def selectionKey (datasetSha256 projectionPolicySha256 policySha256 : Digest)
    (selectionSeed : String) (candidate : BenchmarkSelectionCandidate) (lengthStratum : String) :
    Digest :=
  canonicalDigest prims (.mkObject
    [("schema_version", toJson selectionKeyDomain), ("dataset_sha256", toJson datasetSha256),
      ("projection_policy_sha256", toJson projectionPolicySha256),
      ("selection_policy_sha256", toJson policySha256), ("selection_seed", toJson selectionSeed),
      ("document_id", toJson candidate.documentId),
      ("document_sha256", toJson candidate.documentSha256),
      ("semantic_text_sha256", toJson candidate.semanticTextSha256),
      ("semantic_text_utf8_bytes", toJson candidate.semanticTextUtf8Bytes),
      ("primary_relation", toJson candidate.primaryRelation),
      ("length_stratum", toJson lengthStratum)])

def candidateUniverseDigest (candidates : List BenchmarkSelectionCandidate) : Digest :=
  digestBytes prims (candidateUniverseDomain ++
    (sortBy BenchmarkSelectionCandidate.documentId candidates).flatMap fun candidate =>
      Text.utf8 (canonicalDigest prims (.mkObject
        [("document_id", toJson candidate.documentId),
          ("document_sha256", toJson candidate.documentSha256),
          ("semantic_text_sha256", toJson candidate.semanticTextSha256),
          ("semantic_text_utf8_bytes", toJson candidate.semanticTextUtf8Bytes),
          ("primary_relation", toJson candidate.primaryRelation)])).val ++ [0])

/-! ### Selection -/

/-- What the pass over the candidates has seen, and the rows of every cell. -/
structure CandidateScan where
  ids : List String
  keys : List Digest
  groups : SortedMap Cell (List BenchmarkSelectionRow)

section Selecting

variable (dataset : DatasetIdentity) (projectionPolicy : ComponentRef)
  (policy : BenchmarkSelectionPolicy)

/-- The row of a candidate in its stratum, not ranked yet. -/
def candidateRow (candidate : BenchmarkSelectionCandidate) (stratum : BenchmarkLengthStratum) :
    BenchmarkSelectionRow where
  selectionRank := 0
  documentId := candidate.documentId
  documentSha256 := candidate.documentSha256
  semanticTextSha256 := candidate.semanticTextSha256
  semanticTextUtf8Bytes := candidate.semanticTextUtf8Bytes
  primaryRelation := candidate.primaryRelation
  lengthStratum := stratum.id
  selectionKeySha256 := selectionKey prims (canonicalDigest prims (toJson dataset))
    projectionPolicy.sha256 policy.componentSha256 policy.selectionSeed candidate stratum.id

def scanCandidate (scan : CandidateScan) (candidate : BenchmarkSelectionCandidate) :
    Result CandidateScan := do
  validateCandidate dataset candidate
  let ids ← orThrow (insertNew scan.ids candidate.documentId)
    (.invalid "duplicate benchmark candidate id")
  let stratum ← findLengthStratum policy.lengthStrata candidate.semanticTextUtf8Bytes
  let row := candidateRow prims dataset projectionPolicy policy candidate stratum
  let keys ← orThrow (insertNew scan.keys row.selectionKeySha256)
    (.invalid "duplicate benchmark selection key")
  return ⟨ids, keys, scan.groups.insert row.cell ((scan.groups.get? row.cell).getD [] ++ [row])⟩

end Selecting

/-- One quota of a target: how many of each cell have been taken, and the rows the
target adds. -/
def addQuota (groups : SortedMap Cell (List BenchmarkSelectionRow))
    (state : SortedMap Cell ℕ × List BenchmarkSelectionRow) (quota : BenchmarkStratumQuota) :
    Result (SortedMap Cell ℕ × List BenchmarkSelectionRow) :=
  let start := (state.1.get? quota.cell).getD 0
  let stop : ℕ := quota.documents
  match groups.get? quota.cell with
  | none =>
    if start = 0 ∧ stop = 0 then .ok (state.1.insert quota.cell 0, state.2)
    else .error (.invalid "benchmark stratum has no candidates")
  | some candidates => do
    throwIf (candidates.length < stop ∨ stop < start) (.invalid "benchmark stratum capacity")
    return (state.1.insert quota.cell stop, state.2 ++ Tiling.segment candidates start stop)

def pushRanked (selected : List BenchmarkSelectionRow) (row : BenchmarkSelectionRow) :
    Result (List BenchmarkSelectionRow) := do
  let rank ← orThrow (toWidth 64 selected.length) (.invalid "benchmark selection rank")
  return selected ++ [{ row with selectionRank := rank }]

def selectTarget (groups : SortedMap Cell (List BenchmarkSelectionRow))
    (state : SortedMap Cell ℕ × List BenchmarkSelectionRow) (target : BenchmarkTargetQuota) :
    Result (SortedMap Cell ℕ × List BenchmarkSelectionRow) := do
  let (previous, additions) ← target.quotas.foldlM (addQuota groups) (state.1, [])
  let selected ← (sortBy BenchmarkSelectionRow.key additions).foldlM pushRanked state.2
  throwIf (toWidth 64 selected.length ≠ some target.documentCount)
    (.invalid "benchmark target selection count")
  return (previous, selected)

def selectBenchmarkDocuments (dataset : DatasetIdentity) (projectionPolicy : ComponentRef)
    (policy : BenchmarkSelectionPolicy) (candidates : List BenchmarkSelectionCandidate) :
    Result (U64 × Digest × List BenchmarkSelectionRow) := do
  dataset.validate
  projectionPolicy.validate
  policy.validate prims dataset
  let candidateCount ← orThrow (toWidth 64 candidates.length) (.invalid "benchmark candidate count")
  requireSafeU64 candidateCount
  throwIf (candidateCount < 10000) (.invalid "benchmark candidate capacity")
  let scan ← candidates.foldlM (scanCandidate prims dataset projectionPolicy policy)
    ⟨[], [], SortedMap.empty⟩
  let groups := scan.groups.mapValues (sortBy BenchmarkSelectionRow.key)
  let (_, selected) ← policy.targets.foldlM (selectTarget groups) (SortedMap.empty, [])
  return (candidateCount, candidateUniverseDigest prims candidates, selected)

/-! ### The manifest's checks -/

/-- One row: the ids and keys seen so far. -/
def validateSelectionRow (datasetSha256 projectionPolicySha256 : Digest)
    (policy : BenchmarkSelectionPolicy) (seen : List String × List Digest)
    (entry : BenchmarkSelectionRow × ℕ) : Result (List String × List Digest) := do
  let (row, rank) := entry
  requireSafeU64 row.selectionRank
  requireSafeU64 row.semanticTextUtf8Bytes
  throwIf ((row.selectionRank : ℕ) ≠ rank) (.invalid "benchmark selection rank or identity")
  let ids ← orThrow (insertNew seen.1 row.documentId)
    (.invalid "benchmark selection rank or identity")
  let keys ← orThrow (insertNew seen.2 row.selectionKeySha256)
    (.invalid "benchmark selection rank or identity")
  let stratum ← findLengthStratum policy.lengthStrata row.semanticTextUtf8Bytes
  let candidate : BenchmarkSelectionCandidate := {
    documentId := row.documentId
    documentSha256 := row.documentSha256
    semanticTextSha256 := row.semanticTextSha256
    semanticTextUtf8Bytes := row.semanticTextUtf8Bytes
    primaryRelation := row.primaryRelation }
  throwIf (stratum.id ≠ row.lengthStratum ∨
      selectionKey prims datasetSha256 projectionPolicySha256 policy.componentSha256
        policy.selectionSeed candidate row.lengthStratum ≠ row.selectionKeySha256)
    (.invalid "benchmark selection key")
  return (ids, keys)

/-- One stage, from where the stage before it ends. -/
def validateStageOrder (rows : List BenchmarkSelectionRow) (stageStart : ℕ) (size : U64) :
    Result ℕ := do
  -- slicing past the rows aborts
  let stage ← orThrow (rowRange rows stageStart size) .aborted
  throwIf (¬ stage.IsChain (·.key < ·.key)) (.invalid "benchmark selection stage order")
  return size

def validateSelectionRows (rows : List BenchmarkSelectionRow)
    (datasetSha256 projectionPolicySha256 : Digest) (policy : BenchmarkSelectionPolicy) :
    Result Unit := do
  let _ ← rows.zipIdx.foldlM
    (validateSelectionRow prims datasetSha256 projectionPolicySha256 policy) ([], [])
  let _ ← standardBenchmarkSizes.foldlM (validateStageOrder rows) 0

def countCell (counts : SortedMap Cell ℕ) (row : BenchmarkSelectionRow) : SortedMap Cell ℕ :=
  counts.insert row.cell ((counts.get? row.cell).getD 0 + 1)

def validatePrefixQuotas (rows : List BenchmarkSelectionRow)
    (quotas : List BenchmarkStratumQuota) : Result Unit :=
  let actual := rows.foldl countCell SortedMap.empty
  forM quotas fun quota =>
    throwIf ((actual.get? quota.cell).getD 0 ≠ quota.documents) (.invalid "benchmark target quota")

/-! ### What a valid policy says -/

/-- The strata of a valid policy: distinct ids, and one for every length. -/
structure StrataAccepted (strata : List BenchmarkLengthStratum) : Prop where
  ids_nodup : (strata.map (·.id)).Nodup
  covers : ∀ bytes, ∃ stratum ∈ strata, stratum.contains bytes

theorem validateLengthStrata_accepted {strata : List BenchmarkLengthStratum}
    (h : validateLengthStrata strata = .ok ()) : StrataAccepted strata := by
  rw [validateLengthStrata, bind_eq_ok] at h
  obtain ⟨_, hne, h⟩ := h
  rw [throwIf_eq_ok] at hne
  obtain ⟨state, hrun, -⟩ := bind_eq_ok.mp h
  -- the strata so far cover the lengths below the next one, and all of them at the end
  have hinvariant := @foldlM_zipIdx_invariant _ _ _ (validateLengthStratum strata.length)
    (fun pre state => state.1 = (pre.map (·.id)).reverse ∧ (pre.map (·.id)).Nodup ∧
      (∀ bytes : U64, (bytes : ℕ) < state.2 → ∃ stratum ∈ pre, stratum.contains bytes) ∧
      (pre.length = strata.length → pre ≠ [] → ∀ bytes, ∃ stratum ∈ pre, stratum.contains bytes))
    strata ([], 0) state ⟨rfl, List.nodup_nil, fun _ hlt => absurd hlt (Nat.not_lt_zero _),
      fun _ hne => absurd rfl hne⟩ ?_ hrun
  · obtain ⟨-, hnodup, -, hcovers⟩ := hinvariant
    exact ⟨hnodup, hcovers rfl hne⟩
  · rintro pre stratum post ⟨ids, next⟩ after hsplit ⟨rfl, hnodup, hbelow, -⟩ hstep
    simp only [validateLengthStratum, bind_eq_ok, requireText_eq_ok, requireSafeU64_eq_ok,
      orThrow_eq_ok, insertNew_eq_some, throwIf_eq_ok, exists_unit, not_not] at hstep
    obtain ⟨-, -, ids', ⟨hnew, rfl⟩, hminimum, hstep⟩ := hstep
    have hnodup' : ((pre ++ [stratum]).map (·.id)).Nodup := by
      rw [List.map_append, List.map_singleton, List.nodup_append]
      refine ⟨hnodup, List.nodup_singleton _, fun a ha b hb => ?_⟩
      rw [List.mem_singleton] at hb
      rintro rfl
      exact hnew (List.mem_reverse.mpr (hb ▸ ha))
    have hids : stratum.id :: (pre.map (·.id)).reverse =
        ((pre ++ [stratum]).map (·.id)).reverse := by
      rw [List.map_append, List.reverse_append]
      rfl
    have hcontains : ∀ bytes : U64, (bytes : ℕ) < next ∨
        (next ≤ (bytes : ℕ) ∧ ∀ maximum ∈ stratum.maximumUtf8Bytes, bytes ≤ maximum) →
        ∃ other ∈ pre ++ [stratum], other.contains bytes := by
      rintro bytes (hlt | ⟨hle, hmaximum⟩)
      · obtain ⟨other, hother, hin⟩ := hbelow bytes hlt
        exact ⟨other, List.mem_append_left _ hother, hin⟩
      · refine ⟨stratum, by simp, ?_⟩
        rw [BenchmarkLengthStratum.contains, decide_eq_true_eq]
        exact ⟨Fin.le_def.mpr (hminimum ▸ hle), hmaximum⟩
    cases hcase : stratum.maximumUtf8Bytes with
    | some maximum =>
      simp only [hcase, bind_eq_ok, requireSafeU64_eq_ok, throwIf_eq_ok, exists_unit,
        orThrow_eq_ok, checkedAdd_eq_some, pure_eq_ok, not_or] at hstep
      obtain ⟨-, ⟨-, hlast⟩, next', ⟨-, rfl⟩, rfl⟩ := hstep
      refine ⟨hids, hnodup', fun bytes hlt => hcontains bytes ?_, fun hlength => ?_⟩
      · rcases lt_or_ge (bytes : ℕ) next with hbelow | hge
        · exact .inl hbelow
        · refine .inr ⟨hge, fun m hm => ?_⟩
          obtain rfl : maximum = m := Option.some.inj (hcase.symm.trans hm)
          exact Fin.le_def.mpr (Nat.lt_succ_iff.mp hlt)
      · rw [List.length_append, List.length_singleton] at hlength
        exact absurd hlength hlast
    | none =>
      simp only [hcase, bind_eq_ok, throwIf_eq_ok, exists_unit, pure_eq_ok] at hstep
      obtain ⟨-, rfl⟩ := hstep
      refine ⟨hids, hnodup', fun bytes hlt => hcontains bytes (.inl hlt), fun _ _ bytes => ?_⟩
      rcases lt_or_ge (bytes : ℕ) next with hbelow | hge
      · exact hcontains bytes (.inl hbelow)
      · refine hcontains bytes (.inr ⟨hge, fun m hm => ?_⟩)
        rw [hcase] at hm
        cases hm

theorem contains_iff {stratum : BenchmarkLengthStratum} {bytes : U64} :
    stratum.contains bytes ↔
      stratum.minimumUtf8Bytes ≤ bytes ∧ ∀ maximum ∈ stratum.maximumUtf8Bytes, bytes ≤ maximum :=
  decide_eq_true_iff

/-- No length lies in two strata of an accepted list. -/
theorem validateLengthStrata_disjoint {strata : List BenchmarkLengthStratum}
    (h : validateLengthStrata strata = .ok ()) :
    strata.Pairwise fun first second => ∀ bytes, first.contains bytes → ¬ second.contains bytes := by
  obtain ⟨_, -, h⟩ := bind_eq_ok.mp h
  obtain ⟨state, hrun, -⟩ := bind_eq_ok.mp h
  -- until the last stratum, those so far hold only lengths below the next minimum
  refine (@foldlM_zipIdx_invariant _ _ _ (validateLengthStratum strata.length)
    (fun pre state =>
      (pre.Pairwise fun first second => ∀ bytes, first.contains bytes → ¬ second.contains bytes) ∧
      (pre.length < strata.length → ∀ stratum ∈ pre, ∀ bytes : U64, stratum.contains bytes →
        (bytes : ℕ) < state.2))
    strata ([], 0) state ⟨List.Pairwise.nil, fun _ _ hmem => absurd hmem List.not_mem_nil⟩
      ?_ hrun).1
  rintro pre stratum post ⟨ids, next⟩ after hsplit ⟨hdisjoint, hbelow⟩ hstep
  simp only [validateLengthStratum, bind_eq_ok, requireText_eq_ok, requireSafeU64_eq_ok,
    orThrow_eq_ok, throwIf_eq_ok, exists_unit, not_not] at hstep
  obtain ⟨-, -, ids', -, hminimum, hstep⟩ := hstep
  have hlt : pre.length < strata.length := by
    rw [hsplit, List.length_append, List.length_cons]
    omega
  have hdisjoint' : (pre ++ [stratum]).Pairwise fun first second =>
      ∀ bytes, first.contains bytes → ¬ second.contains bytes := by
    refine List.pairwise_append.mpr ⟨hdisjoint, List.pairwise_singleton _ _, ?_⟩
    intro first hfirst second hsecond bytes hin hcontains
    obtain rfl := List.mem_singleton.mp hsecond
    have hle : (second.minimumUtf8Bytes : ℕ) ≤ bytes := Fin.le_def.mp (contains_iff.mp hcontains).1
    have := hbelow hlt first hfirst bytes hin
    omega
  refine ⟨hdisjoint', fun hlength other hother bytes hin => ?_⟩
  rw [List.length_append, List.length_singleton] at hlength
  cases hcase : stratum.maximumUtf8Bytes with
  | some maximum =>
    simp only [hcase, bind_eq_ok, requireSafeU64_eq_ok, throwIf_eq_ok, exists_unit, orThrow_eq_ok,
      checkedAdd_eq_some, pure_eq_ok, not_or, not_lt] at hstep
    obtain ⟨-, ⟨hordered, -⟩, next', ⟨-, rfl⟩, rfl⟩ := hstep
    show (bytes : ℕ) < maximum + 1
    rcases List.mem_append.mp hother with hold | hlast
    · -- the earlier strata end before this one begins
      have hbytes := hbelow hlt other hold bytes hin
      have hle : (stratum.minimumUtf8Bytes : ℕ) ≤ maximum := Fin.le_def.mp hordered
      dsimp only at hbytes hminimum
      omega
    · obtain rfl := List.mem_singleton.mp hlast
      exact Nat.lt_succ_of_le (Fin.le_def.mp ((contains_iff.mp hin).2 maximum hcase))
  | none =>
    -- an open stratum is the last one
    simp only [hcase, bind_eq_ok, throwIf_eq_ok, exists_unit, not_not] at hstep
    exact absurd hstep.1 (Nat.ne_of_lt hlength)

/-- Where no two members pass a test, the members passing it are the one that does. -/
theorem filter_eq_singleton {α : Type*} {p : α → Bool} {xs : List α} {x : α}
    (h : xs.Pairwise fun first second => p first → ¬ p second) (hx : x ∈ xs) (hp : p x) :
    xs.filter p = [x] := by
  obtain ⟨before, after, rfl⟩ := List.append_of_mem hx
  obtain ⟨-, hafter, hcross⟩ := List.pairwise_append.mp h
  have hbefore : before.filter p = [] :=
    List.filter_eq_nil_iff.mpr fun y hy hpy => hcross y hy x List.mem_cons_self hpy hp
  have hrest : after.filter p = [] :=
    List.filter_eq_nil_iff.mpr fun y hy => (List.pairwise_cons.mp hafter).1 y hy hp
  rw [List.filter_append, hbefore, List.filter_cons_of_pos hp, hrest, List.nil_append]

/-- The strata of an accepted list partition the lengths, and the search finds the one a
length lies in. -/
theorem findLengthStratum_unique {strata : List BenchmarkLengthStratum}
    (h : validateLengthStrata strata = .ok ()) (n : U64) :
    ∃ stratum, strata.filter (·.contains n) = [stratum] ∧
      findLengthStratum strata n = .ok stratum := by
  obtain ⟨stratum, hmem, hin⟩ := (validateLengthStrata_accepted h).covers n
  have hfilter : strata.filter (·.contains n) = [stratum] :=
    filter_eq_singleton ((validateLengthStrata_disjoint h).imp fun hpair => hpair n) hmem hin
  refine ⟨stratum, hfilter, ?_⟩
  rw [findLengthStratum, ← List.head?_filter, hfilter]
  rfl

/-- Short texts, long texts, and a text of the first length of the second stratum. -/
theorem findLengthStratum_short_long :
    ∃ stratum, [BenchmarkLengthStratum.mk "short" 0 (some 511), ⟨"long", 512, none⟩].filter
        (·.contains 512) = [stratum] ∧
      findLengthStratum [⟨"short", 0, some 511⟩, ⟨"long", 512, none⟩] 512 = .ok stratum :=
  findLengthStratum_unique (by decide) 512

/-- How many documents of a cell a target holds. -/
def BenchmarkTargetQuota.count (target : BenchmarkTargetQuota) (cell : Cell) : ℕ :=
  match target.quotas.find? (·.cell = cell) with
  | some quota => quota.documents
  | none => 0

/-- The quotas of a target, one for each cell. -/
structure TargetAccepted (cells : List Cell) (target : BenchmarkTargetQuota) : Prop where
  cells : target.quotas.map (·.cell) = cells
  total : (target.quotas.map fun quota => (quota.documents : ℕ)).sum = target.documentCount

theorem TargetAccepted.count_cell {cells : List Cell} {target : BenchmarkTargetQuota}
    (h : TargetAccepted cells target) (hcells : cells.Nodup) {quota : BenchmarkStratumQuota}
    (hquota : quota ∈ target.quotas) : target.count quota.cell = quota.documents := by
  have hfind : target.quotas.find? (·.cell = quota.cell) = some quota := by
    cases hfind : target.quotas.find? (·.cell = quota.cell) with
    | none =>
      have hnone := List.find?_eq_none.mp hfind quota hquota
      simp at hnone
    | some other =>
      have hcell : other.cell = quota.cell := by simpa using List.find?_some hfind
      rw [List.inj_on_of_nodup_map (h.cells ▸ hcells) (List.mem_of_find?_eq_some hfind) hquota
        hcell]
  rw [BenchmarkTargetQuota.count, hfind]

theorem TargetAccepted.sum_count {cells : List Cell} {target : BenchmarkTargetQuota}
    (h : TargetAccepted cells target) (hcells : cells.Nodup) :
    (cells.map target.count).sum = target.documentCount := by
  have hquotas : target.quotas.map (fun quota => target.count quota.cell) =
      target.quotas.map fun quota => (quota.documents : ℕ) :=
    List.map_congr_left fun quota hquota => h.count_cell hcells hquota
  rw [← h.total, ← h.cells, List.map_map, ← hquotas]
  rfl

/-- The quotas of one target pass when they are at least those of the target before
it; then they are the quotas to compare with next. -/
theorem validateTarget_eq_ok {cells : List Cell} (hcells : cells.Nodup)
    {previous after : SortedMap Cell U64} {target : BenchmarkTargetQuota} {size : U64}
    (h : validateTarget cells previous (target, size) = .ok after) :
    target.documentCount = size ∧ TargetAccepted cells target ∧
      (∀ cell ∈ cells, (((previous.get? cell).getD 0 : U64) : ℕ) ≤ target.count cell) ∧
      ∀ cell ∈ cells, (((after.get? cell).getD 0 : U64) : ℕ) = target.count cell := by
  simp only [validateTarget, bind_eq_ok, requireSafeU64_eq_ok, throwIf_eq_ok, exists_unit, not_or,
    not_not, pure_eq_ok] at h
  obtain ⟨-, ⟨rfl, -⟩, hquotas, ⟨previous', total⟩, hrun, htotal, rfl⟩ := h
  -- a cell that has been passed holds its quota, any other what it held before
  have hinvariant := foldlM_invariant (P := fun pre state =>
      state.2 = (pre.map fun quota : BenchmarkStratumQuota => (quota.documents : ℕ)).sum ∧
      (∀ quota ∈ pre, (state.1 : SortedMap Cell U64).get? quota.cell = some quota.documents ∧
        (previous.get? quota.cell).getD 0 ≤ quota.documents) ∧
      ∀ cell, cell ∉ pre.map (·.cell) → state.1.get? cell = previous.get? cell)
    (by exact ⟨rfl, by simp, fun _ _ => rfl⟩) ?_ hrun
  · obtain ⟨hsum, hpassed, -⟩ := hinvariant
    have haccepted : TargetAccepted cells target := ⟨hquotas, by rw [← hsum, htotal]⟩
    have hof : ∀ cell ∈ cells, ∃ quota ∈ target.quotas, quota.cell = cell := by
      intro cell hcell
      rw [← hquotas] at hcell
      exact List.mem_map.mp hcell
    refine ⟨rfl, haccepted, fun cell hcell => ?_, fun cell hcell => ?_⟩
    · obtain ⟨quota, hquota, rfl⟩ := hof cell hcell
      rw [haccepted.count_cell hcells hquota]
      exact (hpassed quota hquota).2
    · obtain ⟨quota, hquota, rfl⟩ := hof cell hcell
      rw [haccepted.count_cell hcells hquota, (hpassed quota hquota).1]
      rfl
  · rintro pre quota post ⟨map, sum⟩ state hsplit ⟨rfl, hpassed, hothers⟩ hstep
    have hnew : quota.cell ∉ pre.map (·.cell) := by
      have hnodup := hquotas ▸ hcells
      rw [hsplit, List.map_append, List.nodup_append] at hnodup
      intro hmem
      exact hnodup.2.2 _ hmem _ (by simp) rfl
    simp only [validateQuota, bind_eq_ok, requireSafeU64_eq_ok, throwIf_eq_ok, exists_unit,
      orThrow_eq_ok, checkedAdd_eq_some, pure_eq_ok, not_lt] at hstep
    obtain ⟨-, hle, total, ⟨-, rfl⟩, rfl⟩ := hstep
    refine ⟨by simp, ?_, fun cell hcell => ?_⟩
    · intro other hother
      rcases List.mem_append.mp hother with hother | hother
      · have hne : other.cell ≠ quota.cell := fun heq => hnew (heq ▸ List.mem_map_of_mem hother)
        rw [SortedMap.get?_insert, if_neg hne]
        exact hpassed other hother
      · obtain rfl := List.mem_singleton.mp hother
        rw [SortedMap.get?_insert, if_pos rfl]
        rw [hothers _ hnew] at hle
        exact ⟨rfl, hle⟩
    · rw [List.map_append, List.mem_append, not_or, List.map_singleton, List.mem_singleton] at hcell
      rw [SortedMap.get?_insert, if_neg hcell.2, hothers cell hcell.1]

theorem TargetAccepted.documents_le {cells : List Cell} {target : BenchmarkTargetQuota}
    (h : TargetAccepted cells target) {quota : BenchmarkStratumQuota}
    (hquota : quota ∈ target.quotas) : quota.documents ≤ target.documentCount := by
  rw [Fin.le_def, ← h.total]
  exact List.le_sum_of_mem (List.mem_map_of_mem hquota)

/-- Quotas for every cell that are at least those before them and add up pass. -/
theorem validateTarget_of_accepted {cells : List Cell} (hcells : cells.Nodup)
    {previous : SortedMap Cell U64} {target : BenchmarkTargetQuota}
    (htarget : TargetAccepted cells target)
    (hsafe : (target.documentCount : ℕ) ≤ maxSafeJsonInteger)
    (hgrow : ∀ cell ∈ cells, (((previous.get? cell).getD 0 : U64) : ℕ) ≤ target.count cell) :
    ∃ after, validateTarget cells previous (target, target.documentCount) = .ok after := by
  have htotal := @foldlM_total _ _ _ validateQuota (fun pre state =>
      state.2 = (pre.map fun quota : BenchmarkStratumQuota => (quota.documents : ℕ)).sum ∧
      ∀ cell, cell ∉ pre.map (·.cell) → state.1.get? cell = previous.get? cell)
    target.quotas (previous, 0)
    ⟨rfl, fun _ _ => rfl⟩ ?_
  · obtain ⟨⟨after, total⟩, hrun, htotal, -⟩ := htotal
    refine ⟨after, ?_⟩
    have hlength : target.quotas.length = cells.length := by
      rw [← htarget.cells, List.length_map]
    simp only [validateTarget, bind_eq_ok, requireSafeU64_eq_ok, throwIf_eq_ok, exists_unit, not_or,
      not_not, pure_eq_ok]
    exact ⟨hsafe, ⟨trivial, hlength⟩, htarget.cells, (after, total), hrun, by rw [htotal, htarget.total],
      rfl⟩
  · rintro pre quota post ⟨map, sum⟩ hsplit ⟨rfl, hothers⟩
    have hquota : quota ∈ target.quotas := hsplit ▸ List.mem_append_right _ List.mem_cons_self
    have hnew : quota.cell ∉ pre.map (·.cell) := by
      have hnodup := htarget.cells ▸ hcells
      rw [hsplit, List.map_append, List.nodup_append] at hnodup
      intro hmem
      exact hnodup.2.2 _ hmem _ List.mem_cons_self rfl
    have hle : (map.get? quota.cell).getD 0 ≤ quota.documents := by
      rw [hothers _ hnew, Fin.le_def, ← htarget.count_cell hcells hquota]
      exact hgrow _ (htarget.cells ▸ List.mem_map_of_mem hquota)
    -- no sum passes the total of the target
    have hsum : (pre.map fun quota : BenchmarkStratumQuota => (quota.documents : ℕ)).sum +
        quota.documents ≤ target.documentCount := by
      rw [← htarget.total, hsplit, List.map_append, List.sum_append, List.map_cons, List.sum_cons]
      omega
    have hfits := (Fin.le_def.mp (htarget.documents_le hquota)).trans hsafe
    refine ⟨(map.insert quota.cell quota.documents,
      (pre.map fun quota => (quota.documents : ℕ)).sum + quota.documents), ?_, ?_,
      fun cell hcell => ?_⟩
    · simp only [validateQuota, bind_eq_ok, requireSafeU64_eq_ok, throwIf_eq_ok, exists_unit,
        orThrow_eq_ok, checkedAdd_eq_some, pure_eq_ok, not_lt]
      exact ⟨hfits, hle, _, ⟨hsum.trans_lt target.documentCount.isLt, rfl⟩, rfl⟩
    · rw [List.map_append, List.sum_append, List.map_singleton, List.sum_singleton]
    · rw [List.map_append, List.mem_append, not_or, List.map_singleton, List.mem_singleton] at hcell
      rw [SortedMap.get?_insert, if_neg hcell.2, hothers cell hcell.1]

/-- A valid policy: its strata, the sizes of its targets, and quotas for every cell
that grow from target to target. -/
structure PolicyAccepted (dataset : DatasetIdentity) (policy : BenchmarkSelectionPolicy) :
    Prop where
  strata : StrataAccepted policy.lengthStrata
  cells_nodup : (expectedCells dataset policy.lengthStrata).Nodup
  sizes : policy.targets.map (·.documentCount) = standardBenchmarkSizes
  targets : ∀ target ∈ policy.targets,
    TargetAccepted (expectedCells dataset policy.lengthStrata) target
  growing : Growing (expectedCells dataset policy.lengthStrata)
    ((fun _ => 0) :: policy.targets.map (·.count))

theorem nodup_expectedCells {dataset : DatasetIdentity} {strata : List BenchmarkLengthStratum}
    (hrelations : dataset.includedRelations.Nodup) (hids : (strata.map (·.id)).Nodup) :
    (expectedCells dataset strata).Nodup := by
  have hproduct : expectedCells dataset strata =
      (dataset.includedRelations ×ˢ strata.map (·.id)).map toLex := by
    show _ = (dataset.includedRelations.flatMap fun relation =>
      (strata.map (·.id)).map (Prod.mk relation)).map toLex
    rw [List.map_flatMap]
    refine List.flatMap_congr fun relation _ => ?_
    rw [List.map_map, List.map_map]
    rfl
  rw [hproduct]
  exact (hrelations.product hids).map toLex.injective

theorem nodup_includedRelations {dataset : DatasetIdentity} (h : dataset.validate = .ok ()) :
    dataset.includedRelations.Nodup :=
  (requireSortedUnique_eq_ok.mp (DatasetIdentity.validate_accepted h).2).2.imp ne_of_lt

theorem BenchmarkSelectionPolicy.validate_accepted {policy : BenchmarkSelectionPolicy}
    {dataset : DatasetIdentity} (h : policy.validate prims dataset = .ok ()) :
    PolicyAccepted dataset policy := by
  simp only [BenchmarkSelectionPolicy.validate, bind_eq_ok, throwIf_eq_ok, exists_unit,
    not_not] at h
  obtain ⟨hdataset, -, -, hstrata, hlength, map, hrun, -⟩ := h
  have hids := validateLengthStrata_accepted hstrata
  have hcells := nodup_expectedCells (nodup_includedRelations hdataset) hids.ids_nodup
  have hinvariant := foldlM_invariant (P := fun pre map =>
      (∀ entry ∈ pre, entry.1.documentCount = entry.2 ∧
        TargetAccepted (expectedCells dataset policy.lengthStrata) entry.1) ∧
      Growing (expectedCells dataset policy.lengthStrata)
        ((fun _ => 0) :: pre.map fun entry : BenchmarkTargetQuota × U64 => entry.1.count) ∧
      ∀ cell ∈ expectedCells dataset policy.lengthStrata,
        ((((map : SortedMap Cell U64).get? cell).getD 0 : U64) : ℕ) =
          (pre.map fun entry => entry.1.count).getLast?.getD (fun _ => 0) cell)
    ⟨by simp, List.pairwise_singleton _ _, fun _ _ => rfl⟩ ?_ hrun
  · obtain ⟨haccepted, hgrowing, -⟩ := hinvariant
    have hfst : (policy.targets.zip standardBenchmarkSizes).map Prod.fst = policy.targets :=
      List.map_fst_zip hlength.le
    have hsnd : (policy.targets.zip standardBenchmarkSizes).map Prod.snd =
        standardBenchmarkSizes := List.map_snd_zip hlength.ge
    refine ⟨hids, hcells, ?_, fun target htarget => ?_, ?_⟩
    · rw [← hsnd, ← List.map_congr_left fun entry hentry => (haccepted entry hentry).1,
        ← hfst, List.map_map, hfst]
      rfl
    · rw [← hfst] at htarget
      obtain ⟨entry, hentry, rfl⟩ := List.mem_map.mp htarget
      exact (haccepted entry hentry).2
    · rw [← hfst, List.map_map]
      exact hgrowing
  · rintro pre ⟨target, size⟩ post map after hsplit ⟨haccepted, hgrowing, hmap⟩ hstep
    obtain ⟨hsize, htarget, hle, hafter⟩ := validateTarget_eq_ok hcells hstep
    refine ⟨?_, ?_, fun cell hcell => ?_⟩
    · intro entry hentry
      rcases List.mem_append.mp hentry with hentry | hentry
      · exact haccepted entry hentry
      · obtain rfl := List.mem_singleton.mp hentry
        exact ⟨hsize, htarget⟩
    · rw [List.map_append]
      refine hgrowing.concat fun cell hcell => ?_
      rw [← hmap cell hcell]
      exact hle cell hcell
    · rw [hafter cell hcell, List.map_append, List.map_singleton, List.getLast?_concat]
      rfl

/-- A policy of these strata and targets passes, when it carries its own digest. -/
theorem BenchmarkSelectionPolicy.validate_of_accepted {policy : BenchmarkSelectionPolicy}
    {dataset : DatasetIdentity} (hdataset : dataset.validate = .ok ())
    (hschema : policy.schemaVersion = policySchema)
    (halgorithm : policy.algorithm = "staged_stratified_sha256_v1")
    (hseed : policy.selectionSeed ≠ "") (hstrata : validateLengthStrata policy.lengthStrata = .ok ())
    (haccepted : PolicyAccepted dataset policy)
    (hdigest : componentDigest prims (toJson policy) = .ok policy.componentSha256) :
    policy.validate prims dataset = .ok () := by
  have hlength : policy.targets.length = standardBenchmarkSizes.length := by
    rw [← haccepted.sizes, List.length_map]
  have hzip : policy.targets.zip standardBenchmarkSizes =
      policy.targets.map fun target => (target, target.documentCount) := by
    rw [← haccepted.sizes, List.zip_map_right, List.zip_eq_zipWith, List.zipWith_self, List.map_map]
    rfl
  have hsizes : ∀ target ∈ policy.targets, (target.documentCount : ℕ) ≤ maxSafeJsonInteger := by
    have hsafe : ∀ size ∈ standardBenchmarkSizes, (size : ℕ) ≤ maxSafeJsonInteger := by
      intro size hsize
      simp only [standardBenchmarkSizes, List.mem_cons, List.not_mem_nil, or_false] at hsize
      rcases hsize with rfl | rfl | rfl <;> decide
    intro target htarget
    exact hsafe _ (haccepted.sizes ▸ List.mem_map_of_mem htarget)
  have htotal := @foldlM_total _ _ _
    (fun map target => validateTarget (expectedCells dataset policy.lengthStrata) map
      (target, target.documentCount))
    (fun pre map => ∀ cell ∈ expectedCells dataset policy.lengthStrata,
      ((((map : SortedMap Cell U64).get? cell).getD 0 : U64) : ℕ) =
        (pre.map BenchmarkTargetQuota.count).getLast?.getD (fun _ => 0) cell)
    policy.targets SortedMap.empty (fun _ _ => rfl) ?_
  · obtain ⟨map, hrun, -⟩ := htotal
    rw [BenchmarkSelectionPolicy.validate, hdataset, hstrata, hzip, List.foldlM_map, hrun, hdigest]
    simp only [bind_eq_ok, throwIf_eq_ok, exists_unit, requireText_eq_ok, not_or, not_not,
      Except.ok.injEq]
    exact ⟨trivial, ⟨hschema, halgorithm⟩, hseed, trivial, hlength, map, rfl, _, rfl, rfl⟩
  · intro pre target post map hsplit hmap
    have htarget : target ∈ policy.targets := hsplit ▸ List.mem_append_right _ List.mem_cons_self
    have hgrowing := haccepted.growing
    rw [hsplit, List.map_append, List.map_cons] at hgrowing
    obtain ⟨after, hafter⟩ := validateTarget_of_accepted haccepted.cells_nodup
      (haccepted.targets target htarget) (hsizes target htarget) fun cell hcell => by
        rw [hmap cell hcell]
        exact hgrowing.last_le hcell
    refine ⟨after, hafter, fun cell hcell => ?_⟩
    obtain ⟨-, -, -, hcounts⟩ := validateTarget_eq_ok haccepted.cells_nodup hafter
    rw [hcounts cell hcell, List.map_append, List.map_singleton, List.getLast?_concat]
    rfl

/-! ### The pass over the candidates -/

section Candidates

variable (dataset : DatasetIdentity) (projectionPolicy : ComponentRef)
  (policy : BenchmarkSelectionPolicy)

/-- The rows of candidates, each in the stratum of its length. -/
def selectionRows (candidates : List BenchmarkSelectionCandidate) : List BenchmarkSelectionRow :=
  candidates.filterMap fun candidate =>
    (policy.lengthStrata.find? (·.contains candidate.semanticTextUtf8Bytes)).map
      (candidateRow prims dataset projectionPolicy policy candidate)

/-- The rows of one cell, as they are ranked. -/
def cellRows (candidates : List BenchmarkSelectionCandidate) (cell : Cell) :
    List BenchmarkSelectionRow :=
  sortBy BenchmarkSelectionRow.key
    ((selectionRows prims dataset projectionPolicy policy candidates).filter (·.cell = cell))

/-- Candidates the selection accepts: valid ones, of distinct ids and distinct keys. -/
structure Admissible (candidates : List BenchmarkSelectionCandidate) : Prop where
  valid : ∀ candidate ∈ candidates, validateCandidate dataset candidate = .ok ()
  ids_nodup : (candidates.map (·.documentId)).Nodup
  keys_nodup : ((selectionRows prims dataset projectionPolicy policy candidates).map
    (·.selectionKeySha256)).Nodup

end Candidates

def addRow (groups : SortedMap Cell (List BenchmarkSelectionRow)) (row : BenchmarkSelectionRow) :
    SortedMap Cell (List BenchmarkSelectionRow) :=
  groups.insert row.cell ((groups.get? row.cell).getD [] ++ [row])

/-- The groups of rows are the rows of every cell that has any. -/
theorem get?_foldl_addRow (rows : List BenchmarkSelectionRow) (cell : Cell) :
    (rows.foldl addRow SortedMap.empty).get? cell =
      if rows.filter (·.cell = cell) = [] then none else some (rows.filter (·.cell = cell)) := by
  induction rows using List.reverseRecOn with
  | nil => rfl
  | append_singleton rows row ih =>
    rw [List.foldl_concat, addRow, SortedMap.get?_insert, List.filter_append]
    by_cases hcell : row.cell = cell
    · subst hcell
      rw [if_pos rfl, List.filter_cons_of_pos (by simp), List.filter_nil, if_neg (by simp), ih]
      by_cases hnil : rows.filter (·.cell = row.cell) = []
      · rw [if_pos hnil, hnil]
        rfl
      · rw [if_neg hnil]
        rfl
    · rw [if_neg (Ne.symm hcell), List.filter_cons_of_neg (by simpa using hcell), List.filter_nil,
        List.append_nil, ih]

section Scan

variable {prims} {dataset : DatasetIdentity} {projectionPolicy : ComponentRef}
  {policy : BenchmarkSelectionPolicy} {candidates : List BenchmarkSelectionCandidate}

theorem scanCandidate_eq_ok {scan after : CandidateScan} {candidate : BenchmarkSelectionCandidate} :
    scanCandidate prims dataset projectionPolicy policy scan candidate = .ok after ↔
      validateCandidate dataset candidate = .ok () ∧ candidate.documentId ∉ scan.ids ∧
      ∃ stratum, policy.lengthStrata.find? (·.contains candidate.semanticTextUtf8Bytes) =
        some stratum ∧
      (candidateRow prims dataset projectionPolicy policy candidate stratum).selectionKeySha256 ∉
        scan.keys ∧
      after = ⟨candidate.documentId :: scan.ids,
        (candidateRow prims dataset projectionPolicy policy candidate
          stratum).selectionKeySha256 :: scan.keys,
        addRow scan.groups (candidateRow prims dataset projectionPolicy policy candidate
          stratum)⟩ := by
  simp only [scanCandidate, bind_eq_ok, exists_unit, orThrow_eq_ok, insertNew_eq_some,
    findLengthStratum, pure_eq_ok]
  constructor
  · rintro ⟨hvalid, ids, ⟨hid, rfl⟩, stratum, hstratum, keys, ⟨hkey, rfl⟩, rfl⟩
    exact ⟨hvalid, hid, stratum, hstratum, hkey, rfl⟩
  · rintro ⟨hvalid, hid, stratum, hstratum, hkey, rfl⟩
    exact ⟨hvalid, _, ⟨hid, rfl⟩, stratum, hstratum, _, ⟨hkey, rfl⟩, rfl⟩

/-- The pass accepts valid candidates of new ids and keys, and gathers their rows. -/
theorem foldlM_scanCandidate (hstrata : StrataAccepted policy.lengthStrata)
    {scan after : CandidateScan} :
    candidates.foldlM (scanCandidate prims dataset projectionPolicy policy) scan = .ok after ↔
      (∀ candidate ∈ candidates, validateCandidate dataset candidate = .ok ()) ∧
      Fresh (candidates.map (·.documentId)) scan.ids ∧
      Fresh ((selectionRows prims dataset projectionPolicy policy candidates).map
        (·.selectionKeySha256)) scan.keys ∧
      after = ⟨(candidates.map (·.documentId)).reverse ++ scan.ids,
        ((selectionRows prims dataset projectionPolicy policy candidates).map
          (·.selectionKeySha256)).reverse ++ scan.keys,
        (selectionRows prims dataset projectionPolicy policy candidates).foldl addRow
          scan.groups⟩ := by
  induction candidates generalizing scan with
  | nil =>
    rw [List.foldlM_nil, pure_eq_ok]
    simp [selectionRows, eq_comm]
  | cons candidate candidates ih =>
    obtain ⟨stratum, hmem, hin⟩ := hstrata.covers candidate.semanticTextUtf8Bytes
    obtain ⟨found, hfound⟩ : ∃ found, policy.lengthStrata.find?
        (·.contains candidate.semanticTextUtf8Bytes) = some found :=
      Option.isSome_iff_exists.mp (List.find?_isSome.mpr ⟨stratum, hmem, hin⟩)
    have hrows : selectionRows prims dataset projectionPolicy policy (candidate :: candidates) =
        candidateRow prims dataset projectionPolicy policy candidate found ::
          selectionRows prims dataset projectionPolicy policy candidates := by
      rw [selectionRows, List.filterMap_cons, hfound]
      rfl
    rw [List.foldlM_cons, bind_eq_ok, hrows]
    simp only [scanCandidate_eq_ok, hfound, Option.some.injEq, exists_eq_left', ih,
      List.forall_mem_cons, List.map_cons, fresh_cons, List.reverse_cons, List.append_assoc,
      List.singleton_append, List.foldl_cons]
    constructor
    · rintro ⟨_, ⟨hvalid, hid, hkey, rfl⟩, hvalids, hids, hkeys, rfl⟩
      exact ⟨⟨hvalid, hvalids⟩, ⟨hid, hids⟩, ⟨hkey, hkeys⟩, rfl⟩
    · rintro ⟨⟨hvalid, hvalids⟩, ⟨hid, hids⟩, ⟨hkey, hkeys⟩, rfl⟩
      exact ⟨_, ⟨hvalid, hid, hkey, rfl⟩, hvalids, hids, hkeys, rfl⟩

/-- **The pass over the candidates** accepts the admissible ones. -/
theorem scan_eq_ok (hstrata : StrataAccepted policy.lengthStrata) {scan : CandidateScan} :
    candidates.foldlM (scanCandidate prims dataset projectionPolicy policy)
        ⟨[], [], SortedMap.empty⟩ = .ok scan ↔
      Admissible prims dataset projectionPolicy policy candidates ∧
      scan = ⟨(candidates.map (·.documentId)).reverse,
        ((selectionRows prims dataset projectionPolicy policy candidates).map
          (·.selectionKeySha256)).reverse,
        (selectionRows prims dataset projectionPolicy policy candidates).foldl addRow
          SortedMap.empty⟩ := by
  rw [foldlM_scanCandidate hstrata]
  simp only [fresh_empty, List.append_nil]
  constructor
  · rintro ⟨hvalid, hids, hkeys, h⟩
    exact ⟨⟨hvalid, hids, hkeys⟩, h⟩
  · rintro ⟨⟨hvalid, hids, hkeys⟩, h⟩
    exact ⟨hvalid, hids, hkeys, h⟩

end Scan

/-! ### Selecting from the groups -/

/-- The failures of a cell that has too few candidates. -/
def IsCapacityError (error : PipelineError) : Prop :=
  error = .invalid "benchmark stratum has no candidates" ∨
    error = .invalid "benchmark stratum capacity"

def BenchmarkSelectionRow.unranked (row : BenchmarkSelectionRow) : BenchmarkSelectionRow :=
  { row with selectionRank := 0 }

/-- Rows in the order of a selection, ranked by their positions. -/
structure Ranked (rows selected : List BenchmarkSelectionRow) : Prop where
  rows : selected.map (·.unranked) = rows
  ranks : selected.map (fun row => (row.selectionRank : ℕ)) = List.range selected.length

theorem Ranked.length_eq {rows selected : List BenchmarkSelectionRow} (h : Ranked rows selected) :
    selected.length = rows.length := by
  rw [← h.rows, List.length_map]

theorem pushRanked_eq_ok {rows selected : List BenchmarkSelectionRow} (h : Ranked rows selected)
    (hlength : selected.length < 2 ^ 64) {row : BenchmarkSelectionRow}
    (hrow : row.unranked = row) :
    ∃ selected', pushRanked selected row = .ok selected' ∧ Ranked (rows ++ [row]) selected' := by
  refine ⟨selected ++ [{ row with selectionRank := ⟨selected.length, hlength⟩ }], ?_, ?_, ?_⟩
  · have hrank : toWidth 64 selected.length = some ⟨selected.length, hlength⟩ :=
      toWidth_eq_some.mpr rfl
    rw [pushRanked, hrank]
    rfl
  · rw [List.map_append, h.rows, List.map_singleton]
    exact congrArg (fun row => rows ++ [row]) hrow
  · rw [List.map_append, h.ranks, List.length_append, List.length_singleton, List.range_succ]
    rfl

theorem foldlM_pushRanked {before rows selected : List BenchmarkSelectionRow}
    (h : Ranked before selected) (hlength : selected.length + rows.length ≤ 2 ^ 64)
    (hrows : ∀ row ∈ rows, row.unranked = row) :
    ∃ selected', rows.foldlM pushRanked selected = .ok selected' ∧
      Ranked (before ++ rows) selected' := by
  refine foldlM_total (P := fun pre selected' => Ranked (before ++ pre) selected')
    (by rwa [List.append_nil]) ?_
  intro pre row post selected' hsplit hselected'
  have hlt : selected'.length < 2 ^ 64 := by
    rw [hsplit, List.length_append, List.length_cons] at hlength
    rw [hselected'.length_eq, List.length_append, ← h.length_eq]
    omega
  rw [← List.append_assoc]
  exact pushRanked_eq_ok hselected' hlt (hrows row (hsplit ▸ by simp))

section Selection

variable {groups : SortedMap Cell (List BenchmarkSelectionRow)} {cells : List Cell}

/-- The rows of a cell; none when it has no group. -/
def groupRows (groups : SortedMap Cell (List BenchmarkSelectionRow)) (cell : Cell) :
    List BenchmarkSelectionRow := (groups.get? cell).getD []

theorem addQuota_of_le {state : SortedMap Cell ℕ × List BenchmarkSelectionRow}
    {quota : BenchmarkStratumQuota}
    (hgrow : (state.1.get? quota.cell).getD 0 ≤ (quota.documents : ℕ))
    (hfit : (quota.documents : ℕ) ≤ (groupRows groups quota.cell).length) :
    addQuota groups state quota = .ok (state.1.insert quota.cell quota.documents,
      state.2 ++ Tiling.segment (groupRows groups quota.cell)
        ((state.1.get? quota.cell).getD 0) quota.documents) := by
  rw [groupRows] at hfit ⊢
  cases hcandidates : groups.get? quota.cell with
  | none =>
    -- nothing is asked of a cell without candidates
    rw [hcandidates, Option.getD_none, List.length_nil, Nat.le_zero] at hfit
    rw [hfit, Nat.le_zero] at hgrow
    simp only [addQuota, hcandidates, hfit, hgrow, and_self, if_true, Option.getD_none,
      Tiling.segment_self, List.append_nil]
  | some candidates =>
    rw [hcandidates, Option.getD_some] at hfit
    simp only [addQuota, hcandidates, Option.getD_some]
    rw [throwIf_bind_of_not (by omega)]
    rfl

theorem addQuota_of_lt {state : SortedMap Cell ℕ × List BenchmarkSelectionRow}
    {quota : BenchmarkStratumQuota}
    (hlt : (groupRows groups quota.cell).length < (quota.documents : ℕ)) :
    ∃ error, addQuota groups state quota = .error error ∧ IsCapacityError error := by
  rw [groupRows] at hlt
  cases hcandidates : groups.get? quota.cell with
  | none =>
    rw [hcandidates, Option.getD_none, List.length_nil] at hlt
    refine ⟨_, ?_, .inl rfl⟩
    simp only [addQuota, hcandidates]
    rw [if_neg (by omega)]
  | some candidates =>
    rw [hcandidates, Option.getD_some] at hlt
    refine ⟨_, ?_, .inr rfl⟩
    simp only [addQuota, hcandidates, throwIf]
    rw [if_pos (.inl hlt)]
    rfl

/-- The quotas of one target: when every cell has enough rows, the target adds those
between the counts before it and its own. -/
theorem foldlM_addQuota {target : BenchmarkTargetQuota} (htarget : TargetAccepted cells target)
    (hcells : cells.Nodup) {previous : SortedMap Cell ℕ}
    (hgrow : ∀ cell ∈ cells, (previous.get? cell).getD 0 ≤ target.count cell) :
    ((∀ quota ∈ target.quotas, (quota.documents : ℕ) ≤ (groupRows groups quota.cell).length) ∧
      ∃ previous', target.quotas.foldlM (addQuota groups) (previous, []) = .ok (previous',
        cells.flatMap fun cell => Tiling.segment (groupRows groups cell)
          ((previous.get? cell).getD 0) (target.count cell)) ∧
        ∀ cell ∈ cells, (previous'.get? cell).getD 0 = target.count cell) ∨
    ((∃ quota ∈ target.quotas, ¬ (quota.documents : ℕ) ≤ (groupRows groups quota.cell).length) ∧
      ∃ error, target.quotas.foldlM (addQuota groups) (previous, []) = .error error ∧
        IsCapacityError error) := by
  have hcases := @foldlM_cases _ _ _ (addQuota groups)
    (fun pre state =>
      state.2 = (pre.flatMap fun quota => Tiling.segment (groupRows groups quota.cell)
        ((previous.get? quota.cell).getD 0) quota.documents) ∧
      (∀ quota ∈ pre, state.1.get? quota.cell = some (quota.documents : ℕ)) ∧
      ∀ cell, cell ∉ pre.map (·.cell) → state.1.get? cell = previous.get? cell)
    (fun quota => (quota.documents : ℕ) ≤ (groupRows groups quota.cell).length)
    IsCapacityError target.quotas (previous, [])
    ⟨rfl, by simp, fun _ _ => rfl⟩ ?_ ?_
  · rcases hcases with ⟨hfit, ⟨previous', additions⟩, hrun, hadditions, hpassed, -⟩ | hfailed
    · refine .inl ⟨hfit, previous', ?_, fun cell hcell => ?_⟩
      · change additions = _ at hadditions
        rw [hrun, hadditions, ← htarget.cells, List.flatMap_map]
        refine congrArg (fun rows => Except.ok (previous', rows)) ?_
        exact List.flatMap_congr fun quota hquota => by rw [htarget.count_cell hcells hquota]
      · rw [← htarget.cells] at hcell
        obtain ⟨quota, hquota, rfl⟩ := List.mem_map.mp hcell
        rw [hpassed quota hquota, htarget.count_cell hcells hquota]
        rfl
    · exact .inr hfailed
  · rintro pre quota post ⟨map, additions⟩ hsplit ⟨rfl, hpassed, hothers⟩ hfit
    have hnew : quota.cell ∉ pre.map (·.cell) := by
      have hnodup := htarget.cells ▸ hcells
      rw [hsplit, List.map_append, List.nodup_append] at hnodup
      intro hmem
      exact hnodup.2.2 _ hmem _ (by simp) rfl
    have hquota : quota ∈ target.quotas := hsplit ▸ by simp
    have hle : (previous.get? quota.cell).getD 0 ≤ (quota.documents : ℕ) := by
      rw [← htarget.count_cell hcells hquota]
      exact hgrow _ (htarget.cells ▸ List.mem_map_of_mem hquota)
    have hstart : map.get? quota.cell = previous.get? quota.cell := hothers _ hnew
    refine ⟨_, addQuota_of_le (by rw [hstart]; exact hle) hfit, ?_, ?_, fun cell hcell => ?_⟩
    · rw [hstart, List.flatMap_append, List.flatMap_singleton]
    · intro other hother
      rcases List.mem_append.mp hother with hother | hother
      · have hne : other.cell ≠ quota.cell := fun heq => hnew (heq ▸ List.mem_map_of_mem hother)
        rw [SortedMap.get?_insert, if_neg hne]
        exact hpassed other hother
      · obtain rfl := List.mem_singleton.mp hother
        rw [SortedMap.get?_insert, if_pos rfl]
    · rw [List.map_append, List.mem_append, not_or, List.map_singleton, List.mem_singleton] at hcell
      rw [SortedMap.get?_insert, if_neg hcell.2, hothers cell hcell.1]
  · intro pre quota post state _ _ hnot
    exact addQuota_of_lt (not_le.mp hnot)

/-- What the targets so far, of the given counts, have left: the counts of every cell,
and the rows of their stages. -/
structure SelectedTo (groups : SortedMap Cell (List BenchmarkSelectionRow)) (cells : List Cell)
    (counts : List (Cell → ℕ)) (state : SortedMap Cell ℕ × List BenchmarkSelectionRow) : Prop where
  previous : ∀ cell ∈ cells, (state.1.get? cell).getD 0 = counts.getLast?.getD (fun _ => 0) cell
  ranked : Ranked (stages BenchmarkSelectionRow.key (groupRows groups) cells (fun _ => 0)
    counts).flatten state.2
  fits : ∀ count ∈ counts, ∀ cell ∈ cells, count cell ≤ (groupRows groups cell).length

/-- One target: it adds its stage when every cell has enough rows. -/
theorem selectTarget_cases (hcells : cells.Nodup)
    (hrows : ∀ cell, ∀ row ∈ groupRows groups cell, row.unranked = row)
    {counts : List (Cell → ℕ)} {state : SortedMap Cell ℕ × List BenchmarkSelectionRow}
    (hstate : SelectedTo groups cells counts state) {target : BenchmarkTargetQuota}
    (htarget : TargetAccepted cells target)
    (hgrowing : Growing cells ((fun _ => 0) :: (counts ++ [target.count]))) :
    ((∀ quota ∈ target.quotas, (quota.documents : ℕ) ≤ (groupRows groups quota.cell).length) ∧
      ∃ state', selectTarget groups state target = .ok state' ∧
        SelectedTo groups cells (counts ++ [target.count]) state') ∨
    ((∃ quota ∈ target.quotas, ¬ (quota.documents : ℕ) ≤ (groupRows groups quota.cell).length) ∧
      ∃ error, selectTarget groups state target = .error error ∧ IsCapacityError error) := by
  obtain ⟨previous, selected⟩ := state
  obtain ⟨hprevious, hranked, hfits⟩ := hstate
  have hgrow : ∀ cell ∈ cells, (previous.get? cell).getD 0 ≤ target.count cell :=
    fun cell hcell => (hprevious cell hcell).trans_le (hgrowing.last_le hcell)
  rcases foldlM_addQuota htarget hcells hgrow with
    ⟨hfit, previous', hrun, hprevious'⟩ | ⟨hlacks, error, hrun, hcapacity⟩
  · refine .inl ⟨hfit, ?_⟩
    have hfits' : ∀ count ∈ counts ++ [target.count], ∀ cell ∈ cells,
        count cell ≤ (groupRows groups cell).length := by
      intro count hcount cell hcell
      rcases List.mem_append.mp hcount with hcount | hcount
      · exact hfits count hcount cell hcell
      · rw [← htarget.cells] at hcell
        obtain ⟨quota, hquota, rfl⟩ := List.mem_map.mp hcell
        rw [List.mem_singleton.mp hcount, htarget.count_cell hcells hquota]
        exact hfit quota hquota
    -- the additions are the next stage
    have hstage : sortBy BenchmarkSelectionRow.key (cells.flatMap fun cell =>
        Tiling.segment (groupRows groups cell) ((previous.get? cell).getD 0)
          (target.count cell)) =
        stage BenchmarkSelectionRow.key (groupRows groups) cells
          (counts.getLast?.getD fun _ => 0) target.count :=
      congrArg _ (List.flatMap_congr fun cell hcell => by rw [hprevious cell hcell])
    have hstages := congrArg List.flatten (@stages_concat _ _ _ _ BenchmarkSelectionRow.key
      (groupRows groups) cells (fun _ => 0) target.count counts)
    rw [List.flatten_append, List.flatten_singleton] at hstages
    have hlength := @length_flatten_stages _ _ _ _ BenchmarkSelectionRow.key (groupRows groups)
      cells (fun _ => 0) (counts ++ [target.count]) hgrowing hfits'
    rw [List.getLast?_concat, Option.getD_some, List.map_congr_left fun cell _ =>
      Nat.sub_zero (target.count cell), htarget.sum_count hcells, hstages] at hlength
    obtain ⟨selected', hpush, hranked'⟩ := @foldlM_pushRanked _
      (stage BenchmarkSelectionRow.key (groupRows groups) cells
        (counts.getLast?.getD fun _ => 0) target.count) _ hranked
      (by
        rw [hranked.length_eq, ← List.length_append, hlength]
        exact target.documentCount.isLt.le)
      (fun row hrow => by
        obtain ⟨cell, -, hrow⟩ := List.mem_flatMap.mp (mem_sortBy.mp hrow)
        exact hrows cell row (Tiling.mem_of_mem_segment hrow))
    have hcount : toWidth 64 selected'.length = some target.documentCount :=
      toWidth_eq_some.mpr (hlength.symm.trans hranked'.length_eq.symm)
    refine ⟨(previous', selected'), ?_, fun cell hcell => ?_, by rwa [hstages], hfits'⟩
    · rw [selectTarget, hrun, ok_bind]
      show (sortBy BenchmarkSelectionRow.key (cells.flatMap fun cell =>
        Tiling.segment (groupRows groups cell) ((previous.get? cell).getD 0)
          (target.count cell))).foldlM pushRanked selected >>= _ = _
      rw [hstage, hpush, ok_bind, throwIf_bind_of_not (not_not.mpr hcount)]
      rfl
    · rw [hprevious' cell hcell, List.getLast?_concat]
      rfl
  · refine .inr ⟨hlacks, error, ?_, hcapacity⟩
    rw [selectTarget, hrun]
    rfl

/-- **The targets** select in stages from the groups, or fail at a cell that is too
small. -/
theorem foldlM_selectTarget {targets : List BenchmarkTargetQuota} (hcells : cells.Nodup)
    (htargets : ∀ target ∈ targets, TargetAccepted cells target)
    (hgrowing : Growing cells ((fun _ => 0) :: targets.map (·.count)))
    (hrows : ∀ cell, ∀ row ∈ groupRows groups cell, row.unranked = row) :
    ((∀ target ∈ targets, ∀ quota ∈ target.quotas,
        (quota.documents : ℕ) ≤ (groupRows groups quota.cell).length) ∧
      ∃ state, targets.foldlM (selectTarget groups) (SortedMap.empty, []) = .ok state ∧
        SelectedTo groups cells (targets.map (·.count)) state) ∨
    ((∃ target ∈ targets, ¬ ∀ quota ∈ target.quotas,
        (quota.documents : ℕ) ≤ (groupRows groups quota.cell).length) ∧
      ∃ error, targets.foldlM (selectTarget groups) (SortedMap.empty, []) = .error error ∧
        IsCapacityError error) := by
  have hcase : ∀ pre target post state, targets = pre ++ target :: post →
      SelectedTo groups cells (pre.map (·.count)) state →
      ((∀ quota ∈ target.quotas, (quota.documents : ℕ) ≤ (groupRows groups quota.cell).length) ∧
        ∃ state', selectTarget groups state target = .ok state' ∧
          SelectedTo groups cells ((pre ++ [target]).map (·.count)) state') ∨
      ((∃ quota ∈ target.quotas,
          ¬ (quota.documents : ℕ) ≤ (groupRows groups quota.cell).length) ∧
        ∃ error, selectTarget groups state target = .error error ∧ IsCapacityError error) := by
    intro pre target post state hsplit hstate
    rw [hsplit, List.map_append, List.map_cons] at hgrowing
    rw [List.map_append, List.map_singleton]
    exact selectTarget_cases hcells hrows hstate (htargets target (hsplit ▸ by simp)) hgrowing.upTo
  have hempty : SelectedTo groups cells (([] : List BenchmarkTargetQuota).map (·.count))
      (SortedMap.empty, []) := ⟨fun _ _ => rfl, ⟨rfl, rfl⟩, by simp⟩
  refine foldlM_cases (P := fun pre => SelectedTo groups cells (pre.map BenchmarkTargetQuota.count)) hempty ?_ ?_
  · intro pre target post state hsplit hstate hfit
    rcases hcase pre target post state hsplit hstate with ⟨-, hrun⟩ | ⟨⟨quota, hquota, hnot⟩, -⟩
    · exact hrun
    · exact absurd (hfit quota hquota) hnot
  · intro pre target post state hsplit hstate hnot
    rcases hcase pre target post state hsplit hstate with ⟨hfit, -⟩ | ⟨-, hrun⟩
    · exact absurd hfit hnot
    · exact hrun

end Selection

/-! ### The selection -/

section Spec

variable {prims} {dataset : DatasetIdentity} {projectionPolicy : ComponentRef}
  {policy : BenchmarkSelectionPolicy} {candidates : List BenchmarkSelectionCandidate}

theorem mem_selectionRows {row : BenchmarkSelectionRow} :
    row ∈ selectionRows prims dataset projectionPolicy policy candidates ↔
      ∃ candidate ∈ candidates, ∃ stratum,
        policy.lengthStrata.find? (·.contains candidate.semanticTextUtf8Bytes) = some stratum ∧
        candidateRow prims dataset projectionPolicy policy candidate stratum = row := by
  simp only [selectionRows, List.mem_filterMap, Option.map_eq_some_iff]

theorem mem_cellRows {row : BenchmarkSelectionRow} {cell : Cell} :
    row ∈ cellRows prims dataset projectionPolicy policy candidates cell ↔
      row ∈ selectionRows prims dataset projectionPolicy policy candidates ∧ row.cell = cell := by
  rw [cellRows, mem_sortBy, List.mem_filter, decide_eq_true_eq]

/-- The groups the selection reads are the ranked rows of the cells. -/
theorem groupRows_eq_cellRows (cell : Cell) :
    groupRows (((selectionRows prims dataset projectionPolicy policy candidates).foldl addRow
      SortedMap.empty).mapValues (sortBy BenchmarkSelectionRow.key)) cell =
      cellRows prims dataset projectionPolicy policy candidates cell := by
  rw [groupRows, SortedMap.get?_mapValues, get?_foldl_addRow, cellRows]
  split
  · next hnil =>
    rw [hnil, sortBy_of_pairwise List.Pairwise.nil]
    rfl
  · rfl

theorem unranked_of_mem_cellRows {row : BenchmarkSelectionRow} {cell : Cell}
    (h : row ∈ cellRows prims dataset projectionPolicy policy candidates cell) :
    row.unranked = row := by
  obtain ⟨candidate, -, stratum, -, rfl⟩ := mem_selectionRows.mp (mem_cellRows.mp h).1
  rfl

theorem Admissible.nodup_key (h : Admissible prims dataset projectionPolicy policy candidates) :
    ((selectionRows prims dataset projectionPolicy policy candidates).map
      BenchmarkSelectionRow.key).Nodup := by
  refine List.Nodup.of_map (fun key : String ×ₗ String => (ofLex key).1) ?_
  have hvalues := h.keys_nodup.map Subtype.val_injective
  rw [List.map_map] at hvalues ⊢
  exact hvalues

theorem Admissible.grouped (h : Admissible prims dataset projectionPolicy policy candidates) :
    Grouped BenchmarkSelectionRow.key BenchmarkSelectionRow.cell
      (cellRows prims dataset projectionPolicy policy candidates) where
  cell _ _ hrow := (mem_cellRows.mp hrow).2
  sorted _ := sortBy_pairwise_lt (h.nodup_key.sublist (List.filter_sublist.map _))

theorem Admissible.perm (h : Admissible prims dataset projectionPolicy policy candidates)
    {others : List BenchmarkSelectionCandidate} (hperm : others.Perm candidates) :
    Admissible prims dataset projectionPolicy policy others where
  valid candidate hcandidate := h.valid candidate (hperm.mem_iff.mp hcandidate)
  ids_nodup := (hperm.map _).nodup_iff.mpr h.ids_nodup
  keys_nodup := ((hperm.filterMap _).map _).nodup_iff.mpr h.keys_nodup

/-- The ranked rows of a cell do not depend on the order of the candidates. -/
theorem Admissible.groups_congr (h : Admissible prims dataset projectionPolicy policy candidates)
    {others : List BenchmarkSelectionCandidate} (hperm : others.Perm candidates) :
    ((selectionRows prims dataset projectionPolicy policy others).foldl addRow
        SortedMap.empty).mapValues (sortBy BenchmarkSelectionRow.key) =
      ((selectionRows prims dataset projectionPolicy policy candidates).foldl addRow
        SortedMap.empty).mapValues (sortBy BenchmarkSelectionRow.key) := by
  refine SortedMap.ext_get? fun cell => ?_
  have hrows : ((selectionRows prims dataset projectionPolicy policy others).filter
      (·.cell = cell)).Perm ((selectionRows prims dataset projectionPolicy policy
        candidates).filter (·.cell = cell)) := (hperm.filterMap _).filter _
  rw [SortedMap.get?_mapValues, SortedMap.get?_mapValues, get?_foldl_addRow, get?_foldl_addRow]
  by_cases hnil : (selectionRows prims dataset projectionPolicy policy candidates).filter
      (·.cell = cell) = []
  · rw [if_pos hnil, if_pos (hnil ▸ hrows).eq_nil]
  · rw [if_neg hnil, if_neg fun heq => hnil (heq ▸ hrows).symm.eq_nil]
    exact congrArg some (sortBy_congr hrows
      ((h.perm hperm).nodup_key.sublist (List.filter_sublist.map _)))

/-- Every cell has as many candidates as every target asks for. -/
def CellsFit (prims : Primitives) (dataset : DatasetIdentity) (projectionPolicy : ComponentRef)
    (policy : BenchmarkSelectionPolicy) (candidates : List BenchmarkSelectionCandidate) : Prop :=
  ∀ target ∈ policy.targets, ∀ quota ∈ target.quotas, (quota.documents : ℕ) ≤
    (cellRows prims dataset projectionPolicy policy candidates quota.cell).length

/-- The rows of a selection, in order of their ranks. -/
def stagedRows (prims : Primitives) (dataset : DatasetIdentity) (projectionPolicy : ComponentRef)
    (policy : BenchmarkSelectionPolicy) (candidates : List BenchmarkSelectionCandidate) :
    List (List BenchmarkSelectionRow) :=
  stages BenchmarkSelectionRow.key (cellRows prims dataset projectionPolicy policy candidates)
    (expectedCells dataset policy.lengthStrata) (fun _ => 0) (policy.targets.map (·.count))

/-- What is checked before the candidates are looked at. -/
structure Prerequisites (prims : Primitives) (dataset : DatasetIdentity)
    (projectionPolicy : ComponentRef) (policy : BenchmarkSelectionPolicy)
    (candidates : List BenchmarkSelectionCandidate) : Prop where
  dataset_ok : dataset.validate = .ok ()
  projection_ok : projectionPolicy.validate = .ok ()
  policy_ok : policy.validate prims dataset = .ok ()
  many : 10000 ≤ candidates.length
  safe : candidates.length ≤ maxSafeJsonInteger

theorem validate_dataset (h : policy.validate prims dataset = .ok ()) :
    dataset.validate = .ok () := by
  simp only [BenchmarkSelectionPolicy.validate, bind_eq_ok, exists_unit] at h
  exact h.1

/-- A selection, once the checks before the candidates have passed. -/
theorem Prerequisites.select_eq
    (h : Prerequisites prims dataset projectionPolicy policy candidates) :
    ∃ count : U64, (count : ℕ) = candidates.length ∧
      selectBenchmarkDocuments prims dataset projectionPolicy policy candidates = do
        let scan ← candidates.foldlM (scanCandidate prims dataset projectionPolicy policy)
          ⟨[], [], SortedMap.empty⟩
        let state ← policy.targets.foldlM
          (selectTarget (scan.groups.mapValues (sortBy BenchmarkSelectionRow.key)))
          (SortedMap.empty, [])
        return (count, candidateUniverseDigest prims candidates, state.2) := by
  have hlt : candidates.length < 2 ^ 64 := h.safe.trans_lt (by decide)
  refine ⟨⟨candidates.length, hlt⟩, rfl, ?_⟩
  have hwidth : toWidth 64 candidates.length = some ⟨candidates.length, hlt⟩ :=
    toWidth_eq_some.mpr rfl
  have hsafe : requireSafeU64 ⟨candidates.length, hlt⟩ = .ok () :=
    requireSafeU64_eq_ok.mpr h.safe
  have hmany : ¬ (⟨candidates.length, hlt⟩ : U64) < 10000 := by
    rw [Fin.lt_def]
    exact not_lt.mpr h.many
  rw [selectBenchmarkDocuments, h.dataset_ok, h.projection_ok, h.policy_ok, hwidth]
  show requireSafeU64 ⟨candidates.length, hlt⟩ >>= _ = _
  rw [hsafe, ok_bind, throwIf_bind_of_not hmany]

/-- **Selecting.** Admissible candidates are selected in stages from the ranked cells,
unless a cell is too small. -/
theorem Prerequisites.select_cases
    (h : Prerequisites prims dataset projectionPolicy policy candidates)
    (hadmissible : Admissible prims dataset projectionPolicy policy candidates) :
    (CellsFit prims dataset projectionPolicy policy candidates ∧ ∃ count selected,
      selectBenchmarkDocuments prims dataset projectionPolicy policy candidates =
        .ok (count, candidateUniverseDigest prims candidates, selected) ∧
      (count : ℕ) = candidates.length ∧
      Ranked (stagedRows prims dataset projectionPolicy policy candidates).flatten selected) ∨
    (¬ CellsFit prims dataset projectionPolicy policy candidates ∧ ∃ error,
      selectBenchmarkDocuments prims dataset projectionPolicy policy candidates =
        .error error ∧ IsCapacityError error) := by
  have hpolicy := BenchmarkSelectionPolicy.validate_accepted prims h.policy_ok
  obtain ⟨count, hcount, heq⟩ := h.select_eq
  have hscan := (scan_eq_ok hpolicy.strata).mpr ⟨hadmissible, rfl⟩
  rw [hscan, ok_bind] at heq
  have hcell := funext fun cell =>
    @groupRows_eq_cellRows prims dataset projectionPolicy policy candidates cell
  have hunranked : ∀ cell, ∀ row ∈ cellRows prims dataset projectionPolicy policy candidates cell,
      row.unranked = row := fun _ _ => unranked_of_mem_cellRows
  rw [← hcell] at hunranked
  have hcases := foldlM_selectTarget hpolicy.cells_nodup hpolicy.targets hpolicy.growing hunranked
  rw [hcell] at hcases
  rcases hcases with ⟨hfit, ⟨previous, selected⟩, hrun, hselected⟩ | ⟨hlacks, error, hrun, hcapacity⟩
  · refine .inl ⟨hfit, count, selected, ?_, hcount, ?_⟩
    · rw [heq]
      show policy.targets.foldlM _ _ >>= _ = _
      rw [hrun]
      rfl
    · have hranked := hselected.ranked
      rw [hcell] at hranked
      exact hranked
  · refine .inr ⟨?_, error, ?_, hcapacity⟩
    · obtain ⟨target, htarget, hnot⟩ := hlacks
      exact fun hfit => hnot (hfit target htarget)
    · rw [heq]
      show policy.targets.foldlM _ _ >>= _ = _
      rw [hrun]
      rfl

/-- A selection that succeeds has passed every check. -/
theorem select_ok {selection : U64 × Digest × List BenchmarkSelectionRow}
    (h : selectBenchmarkDocuments prims dataset projectionPolicy policy candidates =
      .ok selection) :
    Prerequisites prims dataset projectionPolicy policy candidates ∧
      Admissible prims dataset projectionPolicy policy candidates := by
  simp only [selectBenchmarkDocuments, bind_eq_ok, exists_unit, orThrow_eq_ok,
    toWidth_eq_some, requireSafeU64_eq_ok, throwIf_eq_ok, not_lt] at h
  obtain ⟨hdataset, hprojection, hpolicy, count, hcount, hsafe, hmany, scan, hscan, -⟩ := h
  have haccepted := BenchmarkSelectionPolicy.validate_accepted prims hpolicy
  refine ⟨⟨hdataset, hprojection, hpolicy, ?_, hcount ▸ hsafe⟩,
    ((scan_eq_ok haccepted.strata).mp hscan).1⟩
  rw [← hcount]
  exact Fin.le_def.mp hmany

/-- The selection does not depend on the order of admissible candidates. -/
theorem Admissible.select_perm
    (h : Admissible prims dataset projectionPolicy policy candidates)
    (hpolicy : policy.validate prims dataset = .ok ())
    {others : List BenchmarkSelectionCandidate} (hperm : others.Perm candidates) :
    selectBenchmarkDocuments prims dataset projectionPolicy policy others =
      selectBenchmarkDocuments prims dataset projectionPolicy policy candidates := by
  have haccepted := BenchmarkSelectionPolicy.validate_accepted prims hpolicy
  have huniverse : candidateUniverseDigest prims others =
      candidateUniverseDigest prims candidates := by
    rw [candidateUniverseDigest, candidateUniverseDigest,
      sortBy_congr hperm (h.perm hperm).ids_nodup]
  have hscan := (scan_eq_ok haccepted.strata).mpr ⟨h, rfl⟩
  have hscan' := (scan_eq_ok haccepted.strata).mpr ⟨h.perm hperm, rfl⟩
  rw [selectBenchmarkDocuments, selectBenchmarkDocuments, hperm.length_eq, huniverse, hscan,
    hscan']
  simp only [ok_bind, h.groups_congr hperm]

/-! ### What a selection holds -/

/-- The rows of a selection: ranked 0, 1, …; the first rows of every target hold the
first candidates of every cell, as many as its quota says; the manifest's checks
accept them. -/
structure Selected (prims : Primitives) (dataset : DatasetIdentity)
    (projectionPolicy : ComponentRef) (policy : BenchmarkSelectionPolicy)
    (candidates : List BenchmarkSelectionCandidate) (rows : List BenchmarkSelectionRow) : Prop where
  ranks : rows.map (fun row => (row.selectionRank : ℕ)) = List.range rows.length
  sizes : policy.targets.map (fun target => (target.documentCount : ℕ)) = [512, 2000, 10000]
  length_eq : rows.length = 10000
  nested : policy.targets.Pairwise fun target target' =>
    rows.take target.documentCount <+: rows.take target'.documentCount
  first : ∀ target ∈ policy.targets, ∀ quota ∈ target.quotas,
    ((rows.take target.documentCount).filter (·.cell = quota.cell)).map (·.unranked) =
      (cellRows prims dataset projectionPolicy policy candidates quota.cell).take quota.documents
  quota : ∀ target ∈ policy.targets, ∀ quota ∈ target.quotas,
    ((rows.take target.documentCount).filter (·.cell = quota.cell)).length = quota.documents
  rows_accepted : validateSelectionRows prims rows (canonicalDigest prims (toJson dataset))
    projectionPolicy.sha256 policy = .ok ()
  quotas_accepted : ∀ target ∈ policy.targets,
    validatePrefixQuotas (rows.take target.documentCount) target.quotas = .ok ()

/-- The first stages of a selection. -/
theorem stagedRows_take {pre post : List BenchmarkTargetQuota} {target : BenchmarkTargetQuota}
    (hsplit : policy.targets = pre ++ target :: post) :
    (stagedRows prims dataset projectionPolicy policy candidates).take (pre.length + 1) =
      stages BenchmarkSelectionRow.key
        (cellRows prims dataset projectionPolicy policy candidates)
        (expectedCells dataset policy.lengthStrata) (fun _ => 0)
        (pre.map (·.count) ++ [target.count]) := by
  have hcounts : policy.targets.map (·.count) =
      (pre.map (·.count) ++ [target.count]) ++ post.map (·.count) := by
    rw [hsplit, List.map_append, List.map_cons, List.append_assoc]
    rfl
  rw [stagedRows, stages_take, hcounts,
    List.take_left' (by rw [List.length_append, List.length_map, List.length_singleton])]

/-- The first rows, up to the size of a target, are the rows of the stages so far. -/
theorem take_stagedRows (hpolicy : PolicyAccepted dataset policy)
    (hfit : CellsFit prims dataset projectionPolicy policy candidates)
    {pre post : List BenchmarkTargetQuota} {target : BenchmarkTargetQuota}
    (hsplit : policy.targets = pre ++ target :: post) :
    (stagedRows prims dataset projectionPolicy policy candidates).flatten.take
        target.documentCount =
      (stages BenchmarkSelectionRow.key
        (cellRows prims dataset projectionPolicy policy candidates)
        (expectedCells dataset policy.lengthStrata) (fun _ => 0)
        (pre.map (·.count) ++ [target.count])).flatten ∧
    (stages BenchmarkSelectionRow.key
        (cellRows prims dataset projectionPolicy policy candidates)
        (expectedCells dataset policy.lengthStrata) (fun _ => 0)
        (pre.map (·.count) ++ [target.count])).flatten.length = target.documentCount := by
  have htarget := hpolicy.targets target (hsplit ▸ by simp)
  have hgrowing := hpolicy.growing
  rw [hsplit, List.map_append, List.map_cons] at hgrowing
  have hlength : (stages BenchmarkSelectionRow.key
      (cellRows prims dataset projectionPolicy policy candidates)
      (expectedCells dataset policy.lengthStrata) (fun _ => 0)
      (pre.map (·.count) ++ [target.count])).flatten.length = target.documentCount := by
    rw [length_flatten_stages hgrowing.upTo, List.getLast?_concat, Option.getD_some,
      ← htarget.sum_count hpolicy.cells_nodup]
    · exact congrArg List.sum (List.map_congr_left fun cell _ => Nat.sub_zero _)
    · intro count hcount cell hcell
      obtain ⟨other, hother, rfl⟩ : ∃ other ∈ policy.targets, other.count = count := by
        rw [← List.map_singleton (f := BenchmarkTargetQuota.count), ← List.map_append] at hcount
        obtain ⟨other, hother, rfl⟩ := List.mem_map.mp hcount
        refine ⟨other, ?_, rfl⟩
        rw [hsplit]
        rcases List.mem_append.mp hother with hother | hother
        · exact List.mem_append_left _ hother
        · exact List.mem_append_right _ (List.mem_singleton.mp hother ▸ List.mem_cons_self)
      rw [← (hpolicy.targets other hother).cells] at hcell
      obtain ⟨quota, hquota, rfl⟩ := List.mem_map.mp hcell
      rw [(hpolicy.targets other hother).count_cell hpolicy.cells_nodup hquota]
      exact hfit other hother quota hquota
  refine ⟨?_, hlength⟩
  rw [← List.take_append_drop (pre.length + 1)
    (stagedRows prims dataset projectionPolicy policy candidates), stagedRows_take hsplit,
    List.flatten_append, List.take_left' hlength]

/-- The rows of a cell among the first rows of a target. -/
theorem filter_take_stagedRows
    (hadmissible : Admissible prims dataset projectionPolicy policy candidates)
    (hpolicy : PolicyAccepted dataset policy)
    (hfit : CellsFit prims dataset projectionPolicy policy candidates)
    {target : BenchmarkTargetQuota} (htarget : target ∈ policy.targets)
    {quota : BenchmarkStratumQuota} (hquota : quota ∈ target.quotas) :
    ((stagedRows prims dataset projectionPolicy policy candidates).flatten.take
        target.documentCount).filter (·.cell = quota.cell) =
      (cellRows prims dataset projectionPolicy policy candidates quota.cell).take
        quota.documents := by
  obtain ⟨pre, post, hsplit⟩ := List.append_of_mem htarget
  have haccepted := hpolicy.targets target htarget
  have hgrowing := hpolicy.growing
  rw [hsplit, List.map_append, List.map_cons] at hgrowing
  rw [(take_stagedRows hpolicy hfit hsplit).1,
    filter_flatten_stages hadmissible.grouped hpolicy.cells_nodup hgrowing.upTo
      (haccepted.cells ▸ List.mem_map_of_mem hquota), List.getLast?_concat, Option.getD_some,
    haccepted.count_cell hpolicy.cells_nodup hquota]
  rfl

/-! ### The manifest's checks accept it -/

theorem get?_foldl_countCell (rows : List BenchmarkSelectionRow) (cell : Cell) :
    ((rows.foldl countCell SortedMap.empty).get? cell).getD 0 =
      (rows.filter (·.cell = cell)).length := by
  induction rows using List.reverseRecOn with
  | nil => rfl
  | append_singleton rows row ih =>
    rw [List.foldl_concat, countCell, SortedMap.get?_insert, List.filter_append]
    by_cases hcell : row.cell = cell
    · subst hcell
      rw [if_pos rfl, List.filter_cons_of_pos (by simp), List.length_append, Option.getD_some, ih]
      rfl
    · rw [if_neg (Ne.symm hcell), List.filter_cons_of_neg (by simpa using hcell), ih,
        List.filter_nil, List.append_nil]

/-- The quota check passes when every quota is met. -/
theorem validatePrefixQuotas_eq_ok {rows : List BenchmarkSelectionRow}
    {quotas : List BenchmarkStratumQuota} :
    validatePrefixQuotas rows quotas = .ok () ↔
      ∀ quota ∈ quotas, (rows.filter (·.cell = quota.cell)).length = quota.documents := by
  simp only [validatePrefixQuotas, forM_eq_ok, throwIf_eq_ok, not_not, get?_foldl_countCell]

/-- A row that stems from an admissible candidate. -/
theorem validateSelectionRow_eq_ok {row : BenchmarkSelectionRow} {rank : ℕ} {seen : List String × List Digest}
    (hvalid : ∀ candidate ∈ candidates, validateCandidate dataset candidate = .ok ())
    (hrow : row.unranked ∈ selectionRows prims dataset projectionPolicy policy candidates)
    (hrank : (row.selectionRank : ℕ) = rank) (hsafe : rank ≤ maxSafeJsonInteger)
    (hid : row.documentId ∉ seen.1) (hkey : row.selectionKeySha256 ∉ seen.2) :
    validateSelectionRow prims (canonicalDigest prims (toJson dataset)) projectionPolicy.sha256
        policy seen (row, rank) =
      .ok (row.documentId :: seen.1, row.selectionKeySha256 :: seen.2) := by
  obtain ⟨candidate, hcandidate, stratum, hstratum, heq⟩ := mem_selectionRows.mp hrow
  have hbytes : (candidate.semanticTextUtf8Bytes : ℕ) ≤ maxSafeJsonInteger := by
    have hvalidate := hvalid candidate hcandidate
    simp only [validateCandidate, bind_eq_ok, exists_unit, requireSafeU64_eq_ok] at hvalidate
    exact hvalidate.2.2.1
  -- apart from its rank, the row is the candidate's
  obtain ⟨selectionRank, documentId, documentSha256, semanticTextSha256, semanticTextUtf8Bytes,
    primaryRelation, lengthStratum, selectionKeySha256⟩ := row
  simp only [candidateRow, BenchmarkSelectionRow.unranked, BenchmarkSelectionRow.mk.injEq] at heq
  obtain ⟨-, rfl, rfl, rfl, rfl, rfl, rfl, rfl⟩ := heq
  simp only [validateSelectionRow, bind_eq_ok, exists_unit, requireSafeU64_eq_ok, throwIf_eq_ok,
    orThrow_eq_ok, insertNew_eq_some, findLengthStratum, pure_eq_ok, not_or, not_not]
  exact ⟨hrank ▸ hsafe, hbytes, hrank, _, ⟨hid, rfl⟩, _, ⟨hkey, rfl⟩, stratum, hstratum,
    ⟨rfl, trivial⟩, rfl⟩

theorem mem_stagedRows (hpolicy : PolicyAccepted dataset policy) {row : BenchmarkSelectionRow}
    (h : row ∈ (stagedRows prims dataset projectionPolicy policy candidates).flatten) :
    row ∈ selectionRows prims dataset projectionPolicy policy candidates := by
  obtain ⟨cell, -, hrow⟩ := mem_flatten_stages hpolicy.growing h
  exact (mem_cellRows.mp hrow).1

/-- What tells the candidates' rows apart tells the selected rows apart. -/
theorem nodup_map_stagedRows {β : Type} {f : BenchmarkSelectionRow → β}
    (hadmissible : Admissible prims dataset projectionPolicy policy candidates)
    (hpolicy : PolicyAccepted dataset policy)
    (hf : ((selectionRows prims dataset projectionPolicy policy candidates).map f).Nodup) :
    ((stagedRows prims dataset projectionPolicy policy candidates).flatten.map f).Nodup :=
  nodup_map_flatten_stages hadmissible.grouped hpolicy.cells_nodup hpolicy.growing
    fun _ _ _ hx _ hy => List.inj_on_of_nodup_map hf (mem_cellRows.mp hx).1 (mem_cellRows.mp hy).1

theorem Admissible.nodup_documentId
    (h : Admissible prims dataset projectionPolicy policy candidates) :
    ((selectionRows prims dataset projectionPolicy policy candidates).map
      (·.documentId)).Nodup := by
  refine h.ids_nodup.sublist ?_
  clear h
  induction candidates with
  | nil => exact List.Sublist.refl _
  | cons candidate candidates ih =>
    rw [selectionRows, List.filterMap_cons]
    cases policy.lengthStrata.find? (·.contains candidate.semanticTextUtf8Bytes) with
    | none => exact ih.cons _
    | some stratum => exact ih.cons_cons _

theorem rows_accepted (hadmissible : Admissible prims dataset projectionPolicy policy candidates)
    (hpolicy : PolicyAccepted dataset policy) {rows : List BenchmarkSelectionRow}
    (hranked : Ranked (stagedRows prims dataset projectionPolicy policy candidates).flatten rows)
    (hlength : rows.length ≤ maxSafeJsonInteger) :
    ∃ seen, rows.zipIdx.foldlM (validateSelectionRow prims (canonicalDigest prims (toJson dataset))
      projectionPolicy.sha256 policy) ([], []) = .ok seen := by
  have hids : (rows.map (·.documentId)).Nodup := by
    have hnodup := nodup_map_stagedRows hadmissible hpolicy hadmissible.nodup_documentId
    rw [← hranked.rows, List.map_map] at hnodup
    exact hnodup
  have hkeys : (rows.map (·.selectionKeySha256)).Nodup := by
    have hnodup := nodup_map_stagedRows hadmissible hpolicy hadmissible.keys_nodup
    rw [← hranked.rows, List.map_map] at hnodup
    exact hnodup
  have htotal := @foldlM_zipIdx_total _ _ _ (validateSelectionRow prims
      (canonicalDigest prims (toJson dataset)) projectionPolicy.sha256 policy)
    (fun pre seen => seen = ((pre.map (·.documentId)).reverse,
      (pre.map (·.selectionKeySha256)).reverse)) rows ([], []) rfl ?_
  · obtain ⟨seen, hseen, -⟩ := htotal
    exact ⟨seen, hseen⟩
  · rintro pre row post seen hsplit rfl
    have hmem : row.unranked ∈ selectionRows prims dataset projectionPolicy policy candidates := by
      refine mem_stagedRows hpolicy ?_
      rw [← hranked.rows, hsplit]
      exact List.mem_map_of_mem (by simp)
    have hrank : (row.selectionRank : ℕ) = pre.length := by
      have hget := congrArg (·[pre.length]?) hranked.ranks
      rw [hsplit] at hget
      simpa using hget
    have hsafe : pre.length ≤ maxSafeJsonInteger := by
      rw [hsplit, List.length_append] at hlength
      exact (Nat.le_add_right _ _).trans hlength
    rw [hsplit, List.map_append, List.map_cons, List.nodup_append] at hids hkeys
    refine ⟨_, validateSelectionRow_eq_ok hadmissible.valid hmem hrank hsafe (fun hin => ?_)
      (fun hin => ?_), ?_⟩
    · exact hids.2.2 _ (List.mem_reverse.mp hin) _ List.mem_cons_self rfl
    · exact hkeys.2.2 _ (List.mem_reverse.mp hin) _ List.mem_cons_self rfl
    · rw [List.map_append, List.map_append, List.reverse_append, List.reverse_append]
      rfl

theorem stages_accepted (hadmissible : Admissible prims dataset projectionPolicy policy candidates)
    (hpolicy : PolicyAccepted dataset policy)
    (hfit : CellsFit prims dataset projectionPolicy policy candidates)
    {rows : List BenchmarkSelectionRow}
    (hranked : Ranked (stagedRows prims dataset projectionPolicy policy candidates).flatten rows) :
    ∃ stop, standardBenchmarkSizes.foldlM (validateStageOrder rows) 0 = .ok stop := by
  rw [← hpolicy.sizes, List.foldlM_map]
  have htotal := @foldlM_total _ _ _ (fun stageStart (target : BenchmarkTargetQuota) =>
      validateStageOrder rows stageStart target.documentCount)
    (fun pre stageStart => stageStart = (stages BenchmarkSelectionRow.key
      (cellRows prims dataset projectionPolicy policy candidates)
      (expectedCells dataset policy.lengthStrata) (fun _ => 0) (pre.map (·.count))).flatten.length)
    policy.targets 0 rfl ?_
  · obtain ⟨stop, hstop, -⟩ := htotal
    exact ⟨stop, hstop⟩
  · rintro pre target post stageStart hsplit rfl
    obtain ⟨htake, hlength⟩ := take_stagedRows hpolicy hfit hsplit
    have hlast := @stagedRows_take prims dataset projectionPolicy policy candidates pre post target
      hsplit
    rw [stages_concat] at hlast htake hlength
    rw [List.flatten_append, List.flatten_singleton] at htake hlength
    have hmem : stage BenchmarkSelectionRow.key
        (cellRows prims dataset projectionPolicy policy candidates)
        (expectedCells dataset policy.lengthStrata)
        ((pre.map (·.count)).getLast?.getD fun _ => 0) target.count ∈
        stagedRows prims dataset projectionPolicy policy candidates := by
      refine @List.mem_of_mem_take _ (pre.length + 1) _ _ ?_
      rw [hlast]
      exact List.mem_append_right _ (List.mem_singleton_self _)
    have hascending := stages_pairwise
      (nodup_map_stagedRows hadmissible hpolicy hadmissible.nodup_key) _ hmem
    rw [List.map_append, List.map_singleton, stages_concat, List.flatten_append,
      List.flatten_singleton]
    generalize (stages BenchmarkSelectionRow.key
      (cellRows prims dataset projectionPolicy policy candidates)
      (expectedCells dataset policy.lengthStrata) (fun _ => 0) (pre.map (·.count))).flatten =
        before at htake hlength ⊢
    generalize stage BenchmarkSelectionRow.key _ _ _ _ = next at htake hlength hascending ⊢
    -- the slice of the stage
    have hslice : (Tiling.segment rows before.length target.documentCount).map (·.unranked) =
        next := by
      rw [Tiling.map_segment, hranked.rows, Tiling.segment, ← List.drop_take, htake,
        List.drop_left]
    have hlong : (target.documentCount : ℕ) ≤ rows.length := by
      have hcount := congrArg List.length htake
      rw [hlength, List.length_take, ← hranked.length_eq] at hcount
      exact hcount ▸ min_le_right _ _
    have hchain : (Tiling.segment rows before.length target.documentCount).IsChain
        (·.key < ·.key) := by
      rw [← hslice] at hascending
      exact (List.pairwise_map.mp hascending).isChain
    refine ⟨_, ?_, hlength.symm⟩
    simp only [validateStageOrder, bind_eq_ok, orThrow_eq_ok, rowRange_eq_some, throwIf_eq_ok,
      exists_unit, not_not]
    refine ⟨_, ⟨⟨?_, hlong⟩, rfl⟩, hchain, rfl⟩
    rw [← hlength, List.length_append]
    exact Nat.le_add_right _ _

theorem selected_of_ranked
    (h : Prerequisites prims dataset projectionPolicy policy candidates)
    (hadmissible : Admissible prims dataset projectionPolicy policy candidates)
    (hfit : CellsFit prims dataset projectionPolicy policy candidates)
    {rows : List BenchmarkSelectionRow}
    (hranked : Ranked (stagedRows prims dataset projectionPolicy policy candidates).flatten rows) :
    Selected prims dataset projectionPolicy policy candidates rows := by
  have hpolicy := BenchmarkSelectionPolicy.validate_accepted prims h.policy_ok
  have hsizes : policy.targets.map (fun target => (target.documentCount : ℕ)) =
      [512, 2000, 10000] := by
    have hvalues := congrArg (List.map Fin.val) hpolicy.sizes
    rw [List.map_map] at hvalues
    exact hvalues
  -- the last target takes everything
  have hlength : rows.length = 10000 := by
    obtain ⟨pre, target, hsplit⟩ : ∃ pre target, policy.targets = pre ++ [target] := by
      refine ⟨_, _, (List.dropLast_append_getLast (fun hnil => ?_)).symm⟩
      rw [hnil] at hsizes
      cases hsizes
    have hlast : (target.documentCount : ℕ) = 10000 := by
      have hget := congrArg List.getLast? hsizes
      rw [hsplit, List.map_append, List.map_singleton, List.getLast?_concat] at hget
      exact Option.some.inj hget
    obtain ⟨-, hstages⟩ := @take_stagedRows prims dataset projectionPolicy policy candidates
      hpolicy hfit pre [] target hsplit
    rw [hranked.length_eq, ← hlast, ← hstages, stagedRows, hsplit, List.map_append,
      List.map_singleton]
  have hfilter : ∀ target ∈ policy.targets, ∀ quota ∈ target.quotas,
      ((rows.take target.documentCount).filter (·.cell = quota.cell)).map (·.unranked) =
        (cellRows prims dataset projectionPolicy policy candidates quota.cell).take
          quota.documents := by
    intro target htarget quota hquota
    rw [← filter_take_stagedRows hadmissible hpolicy hfit htarget hquota, ← hranked.rows,
      ← List.map_take, List.filter_map]
    rfl
  have hquota : ∀ target ∈ policy.targets, ∀ quota ∈ target.quotas,
      ((rows.take target.documentCount).filter (·.cell = quota.cell)).length =
        quota.documents := by
    intro target htarget quota hquota
    have hcount := congrArg List.length (hfilter target htarget quota hquota)
    rwa [List.length_map, List.length_take, min_eq_left (hfit target htarget quota hquota)]
      at hcount
  refine ⟨?_, hsizes, hlength, ?_, hfilter, hquota, ?_,
    fun target htarget => validatePrefixQuotas_eq_ok.mpr (hquota target htarget)⟩
  · rw [hranked.ranks]
  · have hascending : [512, 2000, 10000].Pairwise (· ≤ ·) := by decide
    rw [← hsizes] at hascending
    exact (List.pairwise_map.mp hascending).imp fun hle => List.take_prefix_take_left hle
  · obtain ⟨seen, hseen⟩ := rows_accepted hadmissible hpolicy hranked
      (hlength ▸ by decide)
    obtain ⟨stop, hstop⟩ := stages_accepted hadmissible hpolicy hfit hranked
    rw [validateSelectionRows, hseen, ok_bind, hstop]
    rfl

end Spec

/-- **Benchmark selection.** A selection that succeeds holds the first candidates of
every cell in its three nested parts, passes the manifest's checks, and is the same
for every order of the candidates. Of admissible candidates every order gives the
same result, and when there are enough of them in all, the only failures are those
of a cell with fewer candidates than a target asks for. -/
theorem selectBenchmarkDocuments_spec (dataset : DatasetIdentity) (projectionPolicy : ComponentRef)
    (policy : BenchmarkSelectionPolicy) (candidates : List BenchmarkSelectionCandidate)
    (hpolicy : policy.validate prims dataset = .ok ()) :
    (∀ count digest rows, selectBenchmarkDocuments prims dataset projectionPolicy policy
        candidates = .ok (count, digest, rows) →
      Selected prims dataset projectionPolicy policy candidates rows ∧
      ∀ others, others.Perm candidates → selectBenchmarkDocuments prims dataset projectionPolicy
        policy others = .ok (count, digest, rows)) ∧
    (Admissible prims dataset projectionPolicy policy candidates →
      (∀ others, others.Perm candidates → selectBenchmarkDocuments prims dataset projectionPolicy
        policy others = selectBenchmarkDocuments prims dataset projectionPolicy policy
          candidates) ∧
      (projectionPolicy.validate = .ok () → 10000 ≤ candidates.length →
        candidates.length ≤ maxSafeJsonInteger →
        ((∃ error, selectBenchmarkDocuments prims dataset projectionPolicy policy candidates =
            .error error ∧ IsCapacityError error) ↔
          ∃ target ∈ policy.targets, ∃ quota ∈ target.quotas,
            (cellRows prims dataset projectionPolicy policy candidates quota.cell).length <
              quota.documents) ∧
        ((∃ selection, selectBenchmarkDocuments prims dataset projectionPolicy policy candidates =
            .ok selection) ↔
          CellsFit prims dataset projectionPolicy policy candidates))) := by
  refine ⟨fun count digest rows h => ?_, fun hadmissible => ⟨fun others hperm =>
    hadmissible.select_perm hpolicy hperm, fun hprojection hmany hsafe => ?_⟩⟩
  · obtain ⟨hprerequisites, hadmissible⟩ := select_ok h
    refine ⟨?_, fun others hperm => by rw [hadmissible.select_perm hpolicy hperm, h]⟩
    rcases hprerequisites.select_cases hadmissible with
      ⟨hfit, count', selected, hselect, -, hranked⟩ | ⟨-, error, hselect, -⟩
    · rw [h] at hselect
      obtain rfl : rows = selected := by
        simp only [Except.ok.injEq, Prod.mk.injEq] at hselect
        exact hselect.2.2
      exact selected_of_ranked hprerequisites hadmissible hfit hranked
    · rw [h] at hselect
      cases hselect
  · have hprerequisites : Prerequisites prims dataset projectionPolicy policy candidates :=
      ⟨validate_dataset hpolicy, hprojection, hpolicy, hmany, hsafe⟩
    have hlacks : (∃ target ∈ policy.targets, ∃ quota ∈ target.quotas,
        (cellRows prims dataset projectionPolicy policy candidates quota.cell).length <
          quota.documents) ↔ ¬ CellsFit prims dataset projectionPolicy policy candidates := by
      simp only [CellsFit, not_forall, not_le, exists_prop]
    rw [hlacks]
    rcases hprerequisites.select_cases hadmissible with
      ⟨hfit, count, selected, hselect, -⟩ | ⟨hnot, error, hselect, hcapacity⟩
    · refine ⟨⟨fun ⟨error, herror, _⟩ => ?_, fun hnot => absurd hfit hnot⟩,
        fun _ => hfit, fun _ => ⟨_, hselect⟩⟩
      rw [hselect] at herror
      cases herror
    · refine ⟨⟨fun _ => hnot, fun _ => ⟨error, hselect, hcapacity⟩⟩, fun ⟨selection, hok⟩ => ?_,
        fun hfit => absurd hfit hnot⟩
      rw [hselect] at hok
      cases hok

/-! ### A selection from ten thousand candidates

One relation and one stratum, so there is one cell. The stand-in for the hash tells the
candidates apart by their lengths. -/

theorem hexDigest_inj {m n : ℕ} (hm : m < 65536) (hn : n < 65536)
    (h : hexDigest m = hexDigest n) : m = n := by
  have hdigit : ∀ i < 16, ∀ j < 16, Nat.digitChar i = Nat.digitChar j → i = j := by decide
  have hdigits := congrArg (fun digest : Digest => digest.val.toList.drop 60) h
  simp only [hexDigest, String.toList_ofList, List.drop_left' List.length_replicate,
    List.map_cons, List.map_nil, List.cons.injEq, and_true] at hdigits
  obtain ⟨h3, h2, h1, h0⟩ := hdigits
  have h3 := hdigit _ (Nat.mod_lt _ (by decide)) _ (Nat.mod_lt _ (by decide)) h3
  have h2 := hdigit _ (Nat.mod_lt _ (by decide)) _ (Nat.mod_lt _ (by decide)) h2
  have h1 := hdigit _ (Nat.mod_lt _ (by decide)) _ (Nat.mod_lt _ (by decide)) h1
  have h0 := hdigit _ (Nat.mod_lt _ (by decide)) _ (Nat.mod_lt _ (by decide)) h0
  omega

theorem selectionKey_samplePrimitives (datasetSha256 projectionSha256 policySha256 : Digest)
    (seed : String) (candidate : BenchmarkSelectionCandidate) (lengthStratum : String) :
    selectionKey samplePrimitives datasetSha256 projectionSha256 policySha256 seed candidate
      lengthStratum = hexDigest candidate.semanticTextUtf8Bytes := by
  have hkeys : ["schema_version", "dataset_sha256", "projection_policy_sha256",
      "selection_policy_sha256", "selection_seed", "document_id", "document_sha256",
      "semantic_text_sha256", "semantic_text_utf8_bytes", "primary_relation",
      "length_stratum"].Nodup := by decide
  rw [selectionKey, canonicalDigest_samplePrimitives, integerSum_mkObject (by exact hkeys)]
  -- only the length is a number
  simp only [List.map_cons, List.map_nil, List.sum_cons, List.sum_nil, toJson, integerSum,
    Nat.zero_add, Nat.add_zero]

def sampleProjection : ComponentRef := sampleComponent "projection"

def sampleStratum : BenchmarkLengthStratum := ⟨"all", 0, none⟩

def sampleTarget (documents : U64) : BenchmarkTargetQuota :=
  ⟨documents, [⟨"events", "all", documents⟩]⟩

def samplePolicy : BenchmarkSelectionPolicy where
  schemaVersion := policySchema
  componentSha256 := hexDigest 25024
  algorithm := "staged_stratified_sha256_v1"
  selectionSeed := "seed"
  lengthStrata := [sampleStratum]
  targets := [sampleTarget 512, sampleTarget 2000, sampleTarget 10000]

def sampleCandidate (n : Fin 10000) : BenchmarkSelectionCandidate where
  documentId := String.ofList (List.replicate (n + 1) 'd')
  documentSha256 := hexDigest 1
  semanticTextSha256 := hexDigest 2
  semanticTextUtf8Bytes := ⟨n + 1, by omega⟩
  primaryRelation := "events"

def sampleCandidates : List BenchmarkSelectionCandidate := (List.finRange 10000).map sampleCandidate

theorem length_sampleCandidates : sampleCandidates.length = 10000 := by
  rw [sampleCandidates, List.length_map, List.length_finRange]

theorem validate_samplePolicy :
    samplePolicy.validate samplePrimitives sampleDataset = .ok () := by
  have hdigest : componentDigest samplePrimitives (toJson samplePolicy) =
      .ok (hexDigest 25024) := by
    show componentDigest samplePrimitives (sealedObject _ samplePolicy.body) = _
    rw [componentDigest_sealedObject _ (by decide), canonicalDigest_samplePrimitives]
    rfl
  rw [BenchmarkSelectionPolicy.validate, hdigest]
  rfl

theorem selectionRows_sampleCandidates :
    selectionRows samplePrimitives sampleDataset sampleProjection samplePolicy sampleCandidates =
      sampleCandidates.map fun candidate => candidateRow samplePrimitives sampleDataset
        sampleProjection samplePolicy candidate sampleStratum := by
  have hfind : ∀ bytes : U64, samplePolicy.lengthStrata.find? (·.contains bytes) =
      some sampleStratum := by
    intro bytes
    refine List.find?_cons_of_pos ?_
    rw [BenchmarkLengthStratum.contains, decide_eq_true_eq]
    exact ⟨Fin.zero_le bytes, by simp [sampleStratum]⟩
  rw [selectionRows, ← List.filterMap_eq_map]
  refine List.filterMap_congr fun candidate _ => ?_
  rw [hfind]
  rfl

theorem documentId_sampleCandidate (n : Fin 10000) :
    (sampleCandidate n).documentId.toList.length = n + 1 := by
  rw [sampleCandidate, String.toList_ofList, List.length_replicate]

theorem admissible_sampleCandidates : Admissible samplePrimitives sampleDataset sampleProjection
    samplePolicy sampleCandidates where
  valid candidate hcandidate := by
    obtain ⟨n, -, rfl⟩ := List.mem_map.mp hcandidate
    have hid : (sampleCandidate n).documentId ≠ "" := by
      intro heq
      have hlength := documentId_sampleCandidate n
      rw [heq] at hlength
      cases hlength
    simp only [validateCandidate, bind_eq_ok, exists_unit, requireText_eq_ok, requireSafeU64_eq_ok,
      throwIf_eq_ok, not_or, not_not]
    refine ⟨hid, ?_, ?_, ?_, List.mem_singleton_self _⟩
    · show "events" ≠ ""
      decide
    · show (n : ℕ) + 1 ≤ 9007199254740991
      omega
    · exact fun hzero => Nat.succ_ne_zero _ (Fin.ext_iff.mp hzero)
  ids_nodup := by
    rw [sampleCandidates, List.map_map]
    refine (List.nodup_finRange _).map fun m n heq => ?_
    have hlength := congrArg (fun s : String => s.toList.length) heq
    simp only [Function.comp, documentId_sampleCandidate] at hlength
    omega
  keys_nodup := by
    rw [selectionRows_sampleCandidates, sampleCandidates, List.map_map, List.map_map]
    refine (List.nodup_finRange _).map fun m n heq => ?_
    simp only [Function.comp, candidateRow, selectionKey_samplePrimitives] at heq
    have hbytes := hexDigest_inj (show (m : ℕ) + 1 < 65536 by omega)
      (show (n : ℕ) + 1 < 65536 by omega) heq
    omega

theorem cellsFit_sampleCandidates : CellsFit samplePrimitives sampleDataset sampleProjection
    samplePolicy sampleCandidates := by
  have hcell : (cellRows samplePrimitives sampleDataset sampleProjection samplePolicy
      sampleCandidates (toLex ("events", "all"))).length = 10000 := by
    rw [cellRows, length_sortBy, selectionRows_sampleCandidates, List.filter_eq_self.mpr,
      List.length_map, length_sampleCandidates]
    intro row hrow
    obtain ⟨candidate, hcandidate, rfl⟩ := List.mem_map.mp hrow
    obtain ⟨n, -, rfl⟩ := List.mem_map.mp hcandidate
    rfl
  have htargets : ∀ documents : U64, documents ≤ 10000 → ∀ quota ∈ (sampleTarget documents).quotas,
      (quota.documents : ℕ) ≤ (cellRows samplePrimitives sampleDataset sampleProjection
        samplePolicy sampleCandidates quota.cell).length := by
    intro documents hle quota hquota
    obtain rfl := List.mem_singleton.mp hquota
    exact (Fin.le_def.mp hle).trans hcell.ge
  exact List.forall_mem_cons.mpr ⟨htargets 512 (by decide), List.forall_mem_cons.mpr
    ⟨htargets 2000 (by decide), List.forall_mem_cons.mpr ⟨htargets 10000 (by decide), by simp⟩⟩⟩

theorem sampleCandidates_selected : ∃ count digest rows,
    selectBenchmarkDocuments samplePrimitives sampleDataset sampleProjection samplePolicy
      sampleCandidates = .ok (count, digest, rows) ∧
    Selected samplePrimitives sampleDataset sampleProjection samplePolicy sampleCandidates rows := by
  obtain ⟨hselected, hadmissible⟩ := selectBenchmarkDocuments_spec samplePrimitives sampleDataset
    sampleProjection samplePolicy sampleCandidates validate_samplePolicy
  obtain ⟨-, hcapacity⟩ := hadmissible admissible_sampleCandidates
  obtain ⟨-, hok⟩ := hcapacity rfl length_sampleCandidates.ge
    (length_sampleCandidates ▸ by decide)
  obtain ⟨⟨count, digest, rows⟩, hselect⟩ := hok.mpr cellsFit_sampleCandidates
  exact ⟨count, digest, rows, hselect, (hselected count digest rows hselect).1⟩

end LivefireRag.Pipeline
