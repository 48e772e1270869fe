import LivefireRag.Lib.Matching
import LivefireRag.Pipeline.PlanTiling

/-!
# Result sets

An executor embeds one task and leaves a receipt; a result-set manifest lists
the receipts of all tasks. `VectorResultReceipt.validateAgainstV2` binds one
receipt to its task, `EmbeddingResultSetManifest.validateV2` a manifest and the
receipts it names to the whole plan.

The manifest check looks receipts up by task id in two maps. Their sizes, equal
to the lengths of the lists they were built from, and one lookup for each task
are all it says about coverage: `validateV2_covers` draws from them that the
receipts match the tasks one to one and that their vector objects, in plan
order, hold one row for each document, in document order.
-/

namespace LivefireRag.Pipeline

open Fallible Machine Tiling Matching

/-! ### Receipts -/

structure VectorObject where
  path : SafeRelativePath
  rows : U64
  bytes : U64
  sha256 : Digest
  dimensions : U32
  dtype : String
  embeddingInputOrderSha256 : Digest
  deriving DecidableEq

instance : ToJson VectorObject := ⟨fun vector => .mkObject
  [("path", toJson vector.path), ("rows", toJson vector.rows), ("bytes", toJson vector.bytes),
    ("sha256", toJson vector.sha256), ("dimensions", toJson vector.dimensions),
    ("dtype", toJson vector.dtype),
    ("embedding_input_order_sha256", toJson vector.embeddingInputOrderSha256)]⟩

structure ExecutorReceipt where
  implementation : ComponentRef
  runtime : ComponentRef
  returnedModel : String
  requests : U64
  retries : U64
  inputBytesUpperBound : U64
  elapsedMs : U64
  conformancePassed : Bool
  deriving DecidableEq

instance : ToJson ExecutorReceipt := ⟨fun executor => .mkObject
  [("implementation", toJson executor.implementation), ("runtime", toJson executor.runtime),
    ("returned_model", toJson executor.returnedModel), ("requests", toJson executor.requests),
    ("retries", toJson executor.retries),
    ("input_bytes_upper_bound", toJson executor.inputBytesUpperBound),
    ("elapsed_ms", toJson executor.elapsedMs),
    ("conformance_passed", toJson executor.conformancePassed)]⟩

/-- The result set a derived result set comes from. -/
structure DerivedResultSetBinding where
  parentEmbeddingProfileSha256 : Digest
  parentResultSetSha256 : Digest
  parentDimensions : U32
  transformation : String
  deriving DecidableEq

instance : ToJson DerivedResultSetBinding := ⟨fun binding => .mkObject
  [("parent_embedding_profile_sha256", toJson binding.parentEmbeddingProfileSha256),
    ("parent_result_set_sha256", toJson binding.parentResultSetSha256),
    ("parent_dimensions", toJson binding.parentDimensions),
    ("transformation", toJson binding.transformation)]⟩

/-- The vector object a derived vector object comes from. -/
structure DerivedVectorBinding where
  parentEmbeddingProfileSha256 : Digest
  parentResultSetSha256 : Digest
  parentReceiptSha256 : Digest
  parentVectorSha256 : Digest
  parentDimensions : U32
  transformation : String
  deriving DecidableEq

instance : ToJson DerivedVectorBinding := ⟨fun binding => .mkObject
  [("parent_embedding_profile_sha256", toJson binding.parentEmbeddingProfileSha256),
    ("parent_result_set_sha256", toJson binding.parentResultSetSha256),
    ("parent_receipt_sha256", toJson binding.parentReceiptSha256),
    ("parent_vector_sha256", toJson binding.parentVectorSha256),
    ("parent_dimensions", toJson binding.parentDimensions),
    ("transformation", toJson binding.transformation)]⟩

/-- The parts of a vector binding that a result set shares. -/
def DerivedVectorBinding.shared (binding : DerivedVectorBinding) : DerivedResultSetBinding :=
  ⟨binding.parentEmbeddingProfileSha256, binding.parentResultSetSha256, binding.parentDimensions,
    binding.transformation⟩

/-- The check of both kinds of binding: a parent of more dimensions, and the one
known transformation. -/
def validateDerivation (parentDimensions targetDimensions : U32) (transformation : String)
    (contract : String) : Result Unit :=
  throwIf (parentDimensions ≤ targetDimensions ∨ transformation ≠ prefixL2DerivationPolicy)
    (.invalid contract)

def DerivedVectorBinding.validate (binding : DerivedVectorBinding) (targetDimensions : U32) :
    Result Unit :=
  validateDerivation binding.parentDimensions targetDimensions binding.transformation
    "derived vector binding"

def DerivedResultSetBinding.validate (binding : DerivedResultSetBinding)
    (targetDimensions : U32) : Result Unit :=
  validateDerivation binding.parentDimensions targetDimensions binding.transformation
    "derived result-set binding"

structure VectorResultReceipt where
  schemaVersion : String
  componentSha256 : Digest
  planSha256 : Digest
  preparedCorpusSha256 : Digest
  embeddingProfileSha256 : Digest
  taskId : String
  ordinalStart : U64
  ordinalEnd : U64
  embeddingInputOrderSha256 : Digest
  vector : VectorObject
  executor : ExecutorReceipt
  derivation : Option DerivedVectorBinding
  finiteValuesValidated : Bool
  normalizationValidated : Bool
  deriving DecidableEq

/-- The fields of a receipt other than its own digest; `derivation` is omitted
when there is none. -/
def VectorResultReceipt.body (receipt : VectorResultReceipt) : List (String × Json) :=
  [("schema_version", toJson receipt.schemaVersion), ("plan_sha256", toJson receipt.planSha256),
    ("prepared_corpus_sha256", toJson receipt.preparedCorpusSha256),
    ("embedding_profile_sha256", toJson receipt.embeddingProfileSha256),
    ("task_id", toJson receipt.taskId), ("ordinal_start", toJson receipt.ordinalStart),
    ("ordinal_end", toJson receipt.ordinalEnd),
    ("embedding_input_order_sha256", toJson receipt.embeddingInputOrderSha256),
    ("vector", toJson receipt.vector), ("executor", toJson receipt.executor),
    ("finite_values_validated", toJson receipt.finiteValuesValidated),
    ("normalization_validated", toJson receipt.normalizationValidated)] ++
  receipt.derivation.toList.map fun derivation => ("derivation", toJson derivation)

instance : ToJson VectorResultReceipt :=
  ⟨fun receipt => sealedObject receipt.componentSha256 receipt.body⟩

@[simp] theorem VectorResultReceipt.body_setDigest (receipt : VectorResultReceipt)
    (digest : Digest) : { receipt with componentSha256 := digest }.body = receipt.body := rfl

/-- A receipt with its digest filled in has the digest of its other fields. -/
theorem VectorResultReceipt.digest_setDigest (prims : Primitives)
    (receipt : VectorResultReceipt) :
    let filled :=
      { receipt with componentSha256 := canonicalDigest prims (.mkObject receipt.body) }
    filled.componentSha256 = canonicalDigest prims (.mkObject filled.body) := rfl

def VectorResultReceipt.testOnly (receipt : VectorResultReceipt) : Bool :=
  receipt.executor.implementation.id = testVectorExecutorId

def VectorResultReceipt.derived (receipt : VectorResultReceipt) : Bool :=
  receipt.derivation.isSome

/-- What is wrong with the executor's account of its run, by the kind of run. -/
def VectorResultReceipt.invalidExecutor (receipt : VectorResultReceipt) : Bool :=
  let executor := receipt.executor
  if receipt.testOnly then
    (executor.requests : ℕ) ≠ 0 ∨ (executor.retries : ℕ) ≠ 0 ∨ executor.conformancePassed
  else if receipt.derived then
    executor.implementation.id ≠ derivedVectorExecutorId ∨ (executor.requests : ℕ) ≠ 0 ∨
      (executor.retries : ℕ) ≠ 0 ∨ executor.conformancePassed
  else
    ¬ executor.conformancePassed ∨ executor.requests < executor.retries ∨
      (executor.requests : ℕ) = 0

section Hashing

variable (prims : Primitives)

def VectorResultReceipt.validateAgainstV2 (receipt : VectorResultReceipt)
    (plan : EmbeddingPlanV2) : Result Unit := do
  plan.validate prims
  forM [receipt.ordinalStart, receipt.ordinalEnd, receipt.vector.rows, receipt.vector.bytes,
    receipt.executor.requests, receipt.executor.retries, receipt.executor.inputBytesUpperBound,
    receipt.executor.elapsedMs] requireSafeU64
  throwIf (¬ (receipt.schemaVersion = vectorReceiptSchema ∧ receipt.derived = false ∨
      receipt.schemaVersion = derivedVectorReceiptSchema ∧ receipt.derived = true))
    (.invalid "vector receipt schema")
  let task ← orThrow (plan.task receipt.taskId) (.invalid "receipt task")
  throwIf (receipt.planSha256 ≠ plan.componentSha256 ∨
      receipt.preparedCorpusSha256 ≠ plan.preparedCorpusSha256 ∨
      receipt.embeddingProfileSha256 ≠ plan.embeddingProfile.component.sha256 ∨
      receipt.ordinalStart ≠ task.ordinalStart ∨ receipt.ordinalEnd ≠ task.ordinalEnd ∨
      receipt.embeddingInputOrderSha256 ≠ task.embeddingInputOrderSha256 ∨
      receipt.vector.path ≠ task.resultPath ∨ (receipt.vector.rows : ℕ) ≠ task.rowCount ∨
      receipt.vector.dimensions ≠ plan.embeddingProfile.dimensions ∨
      receipt.vector.dtype ≠ plan.embeddingProfile.dtype ∨
      receipt.vector.embeddingInputOrderSha256 ≠ task.embeddingInputOrderSha256)
    (.invalid "receipt plan binding")
  throwIf (¬ receipt.finiteValuesValidated ∨ ¬ receipt.normalizationValidated)
    (.invalid "receipt validation flags")
  receipt.executor.implementation.validate
  receipt.executor.runtime.validate
  requireText receipt.executor.returnedModel
  forM receipt.derivation.toList fun derivation => derivation.validate receipt.vector.dimensions
  throwIf receipt.invalidExecutor (.invalid "receipt executor validation")
  let values ← orThrow
    ((checkedMul 64 receipt.vector.rows receipt.vector.dimensions).bind (checkedMul 64 · 4))
    (.invalid "receipt vector byte length")
  let expectedBytes ← orThrow (checkedAdd 64 64 values) (.invalid "receipt vector byte length")
  throwIf ((receipt.vector.bytes : ℕ) ≠ expectedBytes) (.invalid "receipt vector byte length")
  let digest ← componentDigest prims (toJson receipt)
  throwIf (receipt.componentSha256 ≠ digest) (.invalid "receipt component digest")

end Hashing

/-! ### Result sets -/

structure ReceiptEntry where
  taskId : String
  path : SafeRelativePath
  sha256 : Digest
  deriving DecidableEq

instance : ToJson ReceiptEntry := ⟨fun entry => .mkObject
  [("task_id", toJson entry.taskId), ("path", toJson entry.path),
    ("sha256", toJson entry.sha256)]⟩

structure EmbeddingResultSetManifest where
  schemaVersion : String
  componentSha256 : Digest
  planSha256 : Digest
  preparedCorpusSha256 : Digest
  embeddingProfileSha256 : Digest
  documentCount : U64
  documentOrderSha256 : Digest
  receipts : List ReceiptEntry
  derivation : Option DerivedResultSetBinding
  testOnly : Bool
  deriving DecidableEq

/-- The fields of a result set other than its own digest; `derivation` is
omitted when there is none, `test_only` when it is false. -/
def EmbeddingResultSetManifest.body (manifest : EmbeddingResultSetManifest) :
    List (String × Json) :=
  [("schema_version", toJson manifest.schemaVersion), ("plan_sha256", toJson manifest.planSha256),
    ("prepared_corpus_sha256", toJson manifest.preparedCorpusSha256),
    ("embedding_profile_sha256", toJson manifest.embeddingProfileSha256),
    ("document_count", toJson manifest.documentCount),
    ("document_order_sha256", toJson manifest.documentOrderSha256),
    ("receipts", toJson manifest.receipts)] ++
  (manifest.derivation.toList.map fun derivation => ("derivation", toJson derivation)) ++
  (if manifest.testOnly then [("test_only", toJson true)] else [])

instance : ToJson EmbeddingResultSetManifest :=
  ⟨fun manifest => sealedObject manifest.componentSha256 manifest.body⟩

@[simp] theorem EmbeddingResultSetManifest.body_setDigest (manifest : EmbeddingResultSetManifest)
    (digest : Digest) : { manifest with componentSha256 := digest }.body = manifest.body := rfl

theorem EmbeddingResultSetManifest.digest_setDigest (prims : Primitives)
    (manifest : EmbeddingResultSetManifest) :
    let filled :=
      { manifest with componentSha256 := canonicalDigest prims (.mkObject manifest.body) }
    filled.componentSha256 = canonicalDigest prims (.mkObject filled.body) := rfl

section Hashing

variable (prims : Primitives)

/-- One task of the plan: its entry, its receipt, and how they agree with the
manifest and with the executor implementation of the tasks before. -/
def EmbeddingResultSetManifest.validateTask (manifest : EmbeddingResultSetManifest)
    (plan : EmbeddingPlanV2) (entries : SortedMap String ReceiptEntry)
    (values : SortedMap String VectorResultReceipt) (executorImplementation : Option ComponentRef)
    (task : EmbeddingTaskV2) : Result (Option ComponentRef) := do
  let entry ← orThrow (entries.get? task.taskId) (.invalid "missing result task")
  let receipt ← orThrow (values.get? task.taskId) (.invalid "missing receipt")
  receipt.validateAgainstV2 prims plan
  throwIf (∃ expected ∈ executorImplementation, expected ≠ receipt.executor.implementation)
    (.invalid "result executor implementation differs")
  throwIf (receipt.testOnly ≠ manifest.testOnly) (.invalid "result set test-only binding")
  throwIf (receipt.derivation.map (·.shared) ≠ manifest.derivation)
    (.invalid "result derivation binding")
  throwIf (entry.path ≠ task.receiptPath ∨ entry.sha256 ≠ receipt.componentSha256)
    (.invalid "result receipt binding")
  return some (executorImplementation.getD receipt.executor.implementation)

def EmbeddingResultSetManifest.validateV2 (manifest : EmbeddingResultSetManifest)
    (plan : EmbeddingPlanV2) (loaded : List VectorResultReceipt) : Result Unit := do
  plan.validate prims
  requireSafeU64 manifest.documentCount
  let kind := (manifest.schemaVersion, manifest.testOnly, manifest.derivation.isSome)
  throwIf (¬ (kind = (resultSetSchema, false, false) ∨ kind = (testResultSetSchema, true, false) ∨
        kind = (derivedResultSetSchema, false, true)) ∨
      manifest.planSha256 ≠ plan.componentSha256 ∨
      manifest.preparedCorpusSha256 ≠ plan.preparedCorpusSha256 ∨
      manifest.embeddingProfileSha256 ≠ plan.embeddingProfile.component.sha256 ∨
      manifest.documentCount ≠ plan.documentCount ∨
      manifest.documentOrderSha256 ≠ plan.documentOrderSha256)
    (.invalid "result set plan binding")
  throwIf (manifest.receipts.length ≠ plan.tasks.length ∨ loaded.length ≠ plan.tasks.length)
    (.invalid "result set coverage")
  forM manifest.derivation.toList fun derivation =>
    derivation.validate plan.embeddingProfile.dimensions
  let entries := SortedMap.ofList (manifest.receipts.map fun entry => (entry.taskId, entry))
  let values := SortedMap.ofList (loaded.map fun receipt => (receipt.taskId, receipt))
  throwIf (entries.size ≠ manifest.receipts.length ∨ values.size ≠ loaded.length)
    (.invalid "duplicate result task")
  let _ ← plan.tasks.foldlM (manifest.validateTask prims plan entries values) none
  let digest ← componentDigest prims (toJson manifest)
  throwIf (manifest.componentSha256 ≠ digest) (.invalid "result set component digest")

end Hashing

/-! ### What acceptance says -/

/-- The checks of a receipt against its task. -/
structure ReceiptAccepted (prims : Primitives) (plan : EmbeddingPlanV2) (task : EmbeddingTaskV2)
    (receipt : VectorResultReceipt) : Prop where
  safe : ∀ value ∈ [receipt.ordinalStart, receipt.ordinalEnd, receipt.vector.rows,
    receipt.vector.bytes, receipt.executor.requests, receipt.executor.retries,
    receipt.executor.inputBytesUpperBound, receipt.executor.elapsedMs],
    (value : ℕ) ≤ maxSafeJsonInteger
  schema : receipt.schemaVersion = vectorReceiptSchema ∧ receipt.derived = false ∨
    receipt.schemaVersion = derivedVectorReceiptSchema ∧ receipt.derived = true
  task_eq : plan.task receipt.taskId = some task
  plan_eq : receipt.planSha256 = plan.componentSha256
  corpus : receipt.preparedCorpusSha256 = plan.preparedCorpusSha256
  profile : receipt.embeddingProfileSha256 = plan.embeddingProfile.component.sha256
  ordinalStart : receipt.ordinalStart = task.ordinalStart
  ordinalEnd : receipt.ordinalEnd = task.ordinalEnd
  order : receipt.embeddingInputOrderSha256 = task.embeddingInputOrderSha256
  path : receipt.vector.path = task.resultPath
  rows : (receipt.vector.rows : ℕ) = task.rowCount
  dimensions : receipt.vector.dimensions = plan.embeddingProfile.dimensions
  dtype : receipt.vector.dtype = plan.embeddingProfile.dtype
  vectorOrder : receipt.vector.embeddingInputOrderSha256 = task.embeddingInputOrderSha256
  flags : receipt.finiteValuesValidated = true ∧ receipt.normalizationValidated = true
  implementation : receipt.executor.implementation.validate = .ok ()
  runtime : receipt.executor.runtime.validate = .ok ()
  model : receipt.executor.returnedModel ≠ ""
  derivation : ∀ derivation ∈ receipt.derivation.toList,
    derivation.validate receipt.vector.dimensions = .ok ()
  executor : receipt.invalidExecutor = false
  bytes : (receipt.vector.bytes : ℕ) = 64 + receipt.vector.rows * receipt.vector.dimensions * 4
  digest : receipt.componentSha256 = canonicalDigest prims (.mkObject receipt.body)

theorem VectorResultReceipt.validateAgainstV2_eq_ok {prims : Primitives}
    {receipt : VectorResultReceipt} {plan : EmbeddingPlanV2} {u : Unit} :
    receipt.validateAgainstV2 prims plan = .ok u ↔
      plan.validate prims = .ok () ∧ ∃ task, ReceiptAccepted prims plan task receipt := by
  have hdigest : componentDigest prims (toJson receipt) =
      .ok (canonicalDigest prims (.mkObject receipt.body)) := by
    refine componentDigest_sealedObject prims ?_
    cases h : receipt.derivation <;> simp [VectorResultReceipt.body, h]
  simp only [VectorResultReceipt.validateAgainstV2, bind_eq_ok, exists_unit, forM_eq_ok,
    requireSafeU64_eq_ok, requireText_eq_ok, throwIf_eq_ok, orThrow_eq_ok, checkedAdd_eq_some,
    Option.bind_eq_some_iff, checkedMul_eq_some, hdigest, Except.ok.injEq, exists_eq_left',
    not_or, not_not, Bool.not_eq_true, ne_eq, and_congr_right_iff]
  intro _
  constructor
  · rintro ⟨h1, h2, task, h3, ⟨h4, h5, h6, h7, h8, h9, h10, h11, h12, h13, h14⟩, ⟨h15, h16⟩, h17,
      h18, h19, h20, h21, _, ⟨_, ⟨-, rfl⟩, -, rfl⟩, _, ⟨-, rfl⟩, h22, h23⟩
    exact ⟨task, h1, or_iff_not_and_not.mpr h2, h3, h4, h5, h6, h7, h8, h9, h10, h11, h12, h13,
      h14, ⟨by simpa using h15, by simpa using h16⟩, h17, h18, h19, h20, h21, h22, h23⟩
  · rintro ⟨task, h⟩
    have hlt := receipt.vector.bytes.isLt
    have hbytes := h.bytes
    refine ⟨h.safe, or_iff_not_and_not.mp h.schema, task, h.task_eq, ⟨h.plan_eq, h.corpus, h.profile, h.ordinalStart,
      h.ordinalEnd, h.order, h.path, h.rows, h.dimensions, h.dtype, h.vectorOrder⟩,
      by simpa using h.flags, h.implementation, h.runtime, h.model, h.derivation, h.executor, _,
      ⟨_, ⟨?_, rfl⟩, ?_, rfl⟩, _, ⟨?_, rfl⟩, hbytes, h.digest⟩ <;> omega

/-- The checks of one task of the manifest against the receipt and the entry
found for it, when `implementation` is the executor implementation so far. -/
structure ResultAccepted (prims : Primitives) (plan : EmbeddingPlanV2)
    (manifest : EmbeddingResultSetManifest) (implementation : Option ComponentRef)
    (task : EmbeddingTaskV2) (receipt : VectorResultReceipt) (entry : ReceiptEntry) : Prop where
  accepted : receipt.validateAgainstV2 prims plan = .ok ()
  implementation_eq : implementation = some receipt.executor.implementation
  testOnly : receipt.testOnly = manifest.testOnly
  derivation : receipt.derivation.map (·.shared) = manifest.derivation
  path : entry.path = task.receiptPath
  digest : entry.sha256 = receipt.componentSha256

section Coverage

variable {prims : Primitives} {plan : EmbeddingPlanV2} {manifest : EmbeddingResultSetManifest}
  {loaded : List VectorResultReceipt}

/-- The pass over the tasks, looking up by id in lists with distinct ids. It
returns when one executor implementation serves for every task. -/
theorem validateTask_run {entries : List ReceiptEntry} {tasks : List EmbeddingTaskV2}
    (hentries : (entries.map (·.taskId)).Nodup) (hloaded : (loaded.map (·.taskId)).Nodup) :
    (∃ implementation, tasks.foldlM (manifest.validateTask prims plan
        (SortedMap.ofList (entries.map fun entry => (entry.taskId, entry)))
        (SortedMap.ofList (loaded.map fun receipt => (receipt.taskId, receipt)))) none =
          .ok implementation) ↔
      ∃ implementation, ∀ task ∈ tasks, ∃ entry ∈ entries, ∃ receipt ∈ loaded,
        entry.taskId = task.taskId ∧ receipt.taskId = task.taskId ∧
          ResultAccepted prims plan manifest implementation task receipt entry := by
  have hstep : ∀ (expected next : Option ComponentRef) (task : EmbeddingTaskV2),
      manifest.validateTask prims plan
          (SortedMap.ofList (entries.map fun entry => (entry.taskId, entry)))
          (SortedMap.ofList (loaded.map fun receipt => (receipt.taskId, receipt))) expected task =
            .ok next ↔
        (expected = none ∨ expected = next) ∧ ∃ entry ∈ entries, ∃ receipt ∈ loaded,
          entry.taskId = task.taskId ∧ receipt.taskId = task.taskId ∧
            ResultAccepted prims plan manifest next task receipt entry := by
    intro expected next task
    simp only [EmbeddingResultSetManifest.validateTask, bind_eq_ok, exists_unit, orThrow_eq_ok,
      throwIf_eq_ok, not_or, not_not, pure_eq_ok, SortedMap.get?_index hentries,
      SortedMap.get?_index hloaded]
    constructor
    · rintro ⟨entry, ⟨hentry, hentryId⟩, receipt, ⟨hreceipt, hreceiptId⟩, haccepted, hsame, htest,
        hderivation, ⟨hpath, hdigest⟩, rfl⟩
      cases expected with
      | none =>
        exact ⟨.inl rfl, entry, hentry, receipt, hreceipt, hentryId, hreceiptId, haccepted, rfl,
          htest, hderivation, hpath, hdigest⟩
      | some implementation =>
        have heq : implementation = receipt.executor.implementation := by
          by_contra hne
          exact hsame ⟨implementation, rfl, hne⟩
        exact ⟨.inr rfl, entry, hentry, receipt, hreceipt, hentryId, hreceiptId, haccepted,
          congrArg some heq, htest, hderivation, hpath, hdigest⟩
    · rintro ⟨hexpected, entry, hentry, receipt, hreceipt, hentryId, hreceiptId, hresult⟩
      have himplementation := hresult.implementation_eq
      refine ⟨entry, ⟨hentry, hentryId⟩, receipt, ⟨hreceipt, hreceiptId⟩, hresult.accepted, ?_,
        hresult.testOnly, hresult.derivation, ⟨hresult.path, hresult.digest⟩, ?_⟩
      · rintro ⟨implementation, hmem, hne⟩
        rcases hexpected with rfl | rfl
        · exact Option.not_mem_none _ hmem
        · exact hne (Option.some.inj ((Option.mem_def.mp hmem).symm.trans himplementation))
      · rcases hexpected with rfl | rfl
        · exact himplementation.symm
        · rw [himplementation, Option.getD_some]
  constructor
  · rintro ⟨implementation, hrun⟩
    refine ⟨implementation, ?_⟩
    -- the implementation carried is that of every task seen
    refine foldlM_invariant (P := fun pre implementation => ∀ task ∈ pre, ∃ entry ∈ entries,
      ∃ receipt ∈ loaded, entry.taskId = task.taskId ∧ receipt.taskId = task.taskId ∧
        ResultAccepted prims plan manifest implementation task receipt entry) (by simp) ?_ hrun
    intro pre task post expected next _ hpre hnext
    obtain ⟨hexpected, hnew⟩ := (hstep expected next task).mp hnext
    intro other hother
    rcases List.mem_append.mp hother with hother | hother
    · rcases hexpected with rfl | rfl
      · obtain ⟨_, _, _, _, _, _, hresult⟩ := hpre other hother
        exact absurd hresult.implementation_eq (by simp)
      · exact hpre other hother
    · obtain rfl := List.mem_singleton.mp hother
      exact hnew
  · rintro ⟨implementation, hall⟩
    have htotal : ∃ next, tasks.foldlM (manifest.validateTask prims plan
        (SortedMap.ofList (entries.map fun entry => (entry.taskId, entry)))
        (SortedMap.ofList (loaded.map fun receipt => (receipt.taskId, receipt)))) none = .ok next ∧
          (next = none ∨ next = implementation) := by
      refine foldlM_total (P := fun _ next => next = none ∨ next = implementation) (.inl rfl) ?_
      intro pre task post expected hsplit hexpected
      have hmem : task ∈ tasks := by simp [hsplit]
      exact ⟨implementation, (hstep _ _ _).mpr ⟨hexpected, hall task hmem⟩, .inr rfl⟩
    obtain ⟨next, hnext, -⟩ := htotal
    exact ⟨next, hnext⟩

/-- The checks of a result set. -/
structure ResultSetAccepted (prims : Primitives) (plan : EmbeddingPlanV2)
    (manifest : EmbeddingResultSetManifest) (loaded : List VectorResultReceipt) : Prop where
  plan_ok : plan.validate prims = .ok ()
  documentCount_safe : (manifest.documentCount : ℕ) ≤ maxSafeJsonInteger
  kind : manifest.schemaVersion = resultSetSchema ∧ manifest.testOnly = false ∧
      manifest.derivation = none ∨
    manifest.schemaVersion = testResultSetSchema ∧ manifest.testOnly = true ∧
      manifest.derivation = none ∨
    manifest.schemaVersion = derivedResultSetSchema ∧ manifest.testOnly = false ∧
      manifest.derivation.isSome = true
  plan_eq : manifest.planSha256 = plan.componentSha256
  corpus : manifest.preparedCorpusSha256 = plan.preparedCorpusSha256
  profile : manifest.embeddingProfileSha256 = plan.embeddingProfile.component.sha256
  documentCount : manifest.documentCount = plan.documentCount
  order : manifest.documentOrderSha256 = plan.documentOrderSha256
  receipts_length : manifest.receipts.length = plan.tasks.length
  loaded_length : loaded.length = plan.tasks.length
  derivation : ∀ derivation ∈ manifest.derivation.toList,
    derivation.validate plan.embeddingProfile.dimensions = .ok ()
  receipts_nodup : (manifest.receipts.map (·.taskId)).Nodup
  loaded_nodup : (loaded.map (·.taskId)).Nodup
  results : ∃ implementation, ∀ task ∈ plan.tasks, ∃ entry ∈ manifest.receipts,
    ∃ receipt ∈ loaded, entry.taskId = task.taskId ∧ receipt.taskId = task.taskId ∧
      ResultAccepted prims plan manifest implementation task receipt entry
  digest : manifest.componentSha256 = canonicalDigest prims (.mkObject manifest.body)

theorem validateV2_eq_ok :
    manifest.validateV2 prims plan loaded = .ok () ↔
      ResultSetAccepted prims plan manifest loaded := by
  have hdigest : componentDigest prims (toJson manifest) =
      .ok (canonicalDigest prims (.mkObject manifest.body)) := by
    refine componentDigest_sealedObject prims ?_
    cases hderivation : manifest.derivation <;> cases htest : manifest.testOnly <;>
      simp [EmbeddingResultSetManifest.body, hderivation, htest]
  simp only [EmbeddingResultSetManifest.validateV2, bind_eq_ok, exists_unit, throwIf_eq_ok,
    forM_eq_ok, requireSafeU64_eq_ok, not_or, not_not, Prod.mk.injEq, hdigest, Except.ok.injEq,
    exists_eq_left', Option.isSome_eq_false_iff, Option.isNone_iff_eq_none,
    SortedMap.size_index_eq_length_iff]
  constructor
  · rintro ⟨h1, h2, ⟨h3, h4, h5, h6, h7, h8⟩, ⟨h9, h10⟩, h11, ⟨h12, h13⟩, _, hrun, h14⟩
    have hresults := (validateTask_run h12 h13).mp ⟨_, hrun⟩
    refine ⟨h1, h2, ?_, h4, h5, h6, h7, h8, h9, h10, h11, h12, h13, hresults, h14⟩
    rwa [or_iff_not_and_not, not_or]
  · intro h
    obtain ⟨implementation, hrun⟩ :=
      (validateTask_run h.receipts_nodup h.loaded_nodup).mpr h.results
    have hkind := h.kind
    rw [or_iff_not_and_not, not_or] at hkind
    exact ⟨h.plan_ok, h.documentCount_safe, ⟨hkind, h.plan_eq, h.corpus, h.profile,
      h.documentCount, h.order⟩, ⟨h.receipts_length, h.loaded_length⟩, h.derivation,
      ⟨h.receipts_nodup, h.loaded_nodup⟩, implementation, hrun, h.digest⟩

/-- The receipt a task has: it is the task's by id, by its range of documents and
by the object its vectors are in. -/
structure ReceiptOf (task : EmbeddingTaskV2) (receipt : VectorResultReceipt) : Prop where
  taskId : receipt.taskId = task.taskId
  ordinalStart : receipt.ordinalStart = task.ordinalStart
  ordinalEnd : receipt.ordinalEnd = task.ordinalEnd
  path : receipt.vector.path = task.resultPath
  rows : (receipt.vector.rows : ℕ) = task.ordinalEnd - task.ordinalStart
  order : receipt.vector.embeddingInputOrderSha256 = task.embeddingInputOrderSha256

/-- The entry of a manifest that names a receipt. -/
structure EntryOf (receipt : VectorResultReceipt) (entry : ReceiptEntry) : Prop where
  taskId : entry.taskId = receipt.taskId
  sha256 : entry.sha256 = receipt.componentSha256

/-- The documents whose vectors are the rows of a receipt's vector object, in row
order. -/
def VectorResultReceipt.rowOrdinals (receipt : VectorResultReceipt) : List ℕ :=
  (List.range receipt.vector.rows).map ((receipt.ordinalStart : ℕ) + ·)

/-- The receipts and the entries of a result set in plan order: they are those of
the result set, each once, and the rows of the vector objects, one after the
other, are the documents `0, …, document_count - 1`. -/
structure InPlanOrder (plan : EmbeddingPlanV2) (manifest : EmbeddingResultSetManifest)
    (loaded ordered : List VectorResultReceipt) (entries : List ReceiptEntry) : Prop where
  tasks_nodup : (plan.tasks.map (·.taskId)).Nodup
  receipts_perm : ordered.Perm loaded
  entries_perm : entries.Perm manifest.receipts
  receipts : List.Forall₂ ReceiptOf plan.tasks ordered
  entries : List.Forall₂ EntryOf ordered entries
  rows : ordered.flatMap (·.rowOrdinals) = List.range plan.documentCount

/-- The three kinds of result sets, as the fields of the manifest state them and
as the receipts bear them out. -/
inductive OneKind (manifest : EmbeddingResultSetManifest) (loaded : List VectorResultReceipt) :
    Prop where
  /-- One executor implementation, not the one for tests, has embedded every
  task. -/
  | executed (schema : manifest.schemaVersion = resultSetSchema)
      (fields : manifest.testOnly = false ∧ manifest.derivation = none)
      (implementation : ∀ receipt ∈ loaded, ∀ other ∈ loaded,
        receipt.executor.implementation = other.executor.implementation)
      (receipts : ∀ receipt ∈ loaded, receipt.executor.implementation.id ≠ testVectorExecutorId ∧
        receipt.derivation = none)
  /-- Every receipt is for tests only. -/
  | test (schema : manifest.schemaVersion = testResultSetSchema)
      (fields : manifest.testOnly = true ∧ manifest.derivation = none)
      (receipts : ∀ receipt ∈ loaded, receipt.executor.implementation.id = testVectorExecutorId ∧
        receipt.derivation = none)
  /-- Every receipt is derived from the parent result set the manifest names. -/
  | derived (schema : manifest.schemaVersion = derivedResultSetSchema)
      (parent : DerivedResultSetBinding)
      (fields : manifest.testOnly = false ∧ manifest.derivation = some parent)
      (receipts : ∀ receipt ∈ loaded, receipt.executor.implementation.id ≠ testVectorExecutorId ∧
        ∃ binding, receipt.derivation = some binding ∧
          binding.parentResultSetSha256 = parent.parentResultSetSha256 ∧
          binding.parentEmbeddingProfileSha256 = parent.parentEmbeddingProfileSha256 ∧
          binding.parentDimensions = parent.parentDimensions ∧
          binding.transformation = parent.transformation)

/-- The schema and the two fields of the manifest, with receipts that share
them, make one kind. -/
theorem oneKind_of_fields (implementation : Option ComponentRef)
    (hkind : manifest.schemaVersion = resultSetSchema ∧ manifest.testOnly = false ∧
        manifest.derivation = none ∨
      manifest.schemaVersion = testResultSetSchema ∧ manifest.testOnly = true ∧
        manifest.derivation = none ∨
      manifest.schemaVersion = derivedResultSetSchema ∧ manifest.testOnly = false ∧
        manifest.derivation.isSome = true)
    (hloaded : ∀ receipt ∈ loaded, implementation = some receipt.executor.implementation ∧
      receipt.testOnly = manifest.testOnly ∧
      receipt.derivation.map (·.shared) = manifest.derivation) :
    OneKind manifest loaded := by
  have hnone : manifest.derivation = none → ∀ receipt ∈ loaded, receipt.derivation = none := by
    intro hderivation receipt hreceipt
    have hshared := (hloaded receipt hreceipt).2.2
    rw [hderivation] at hshared
    exact Option.map_eq_none_iff.mp hshared
  have htest : ∀ receipt ∈ loaded,
      receipt.executor.implementation.id = testVectorExecutorId ↔ manifest.testOnly = true := by
    intro receipt hreceipt
    rw [← (hloaded receipt hreceipt).2.1, VectorResultReceipt.testOnly, decide_eq_true_eq]
  have hnotTest : manifest.testOnly = false → ∀ receipt ∈ loaded,
      receipt.executor.implementation.id ≠ testVectorExecutorId := by
    intro hfalse receipt hreceipt hid
    have htrue := (htest receipt hreceipt).mp hid
    rw [hfalse] at htrue
    exact Bool.false_ne_true htrue
  rcases hkind with ⟨hschema, hfalse, hderivation⟩ | ⟨hschema, htrue, hderivation⟩ |
    ⟨hschema, hfalse, hsome⟩
  · refine .executed hschema ⟨hfalse, hderivation⟩ ?_ fun receipt hreceipt =>
      ⟨hnotTest hfalse receipt hreceipt, hnone hderivation receipt hreceipt⟩
    intro receipt hreceipt other hother
    have h1 := (hloaded receipt hreceipt).1
    have h2 := (hloaded other hother).1
    exact Option.some.inj (h1.symm.trans h2)
  · exact .test hschema ⟨htrue, hderivation⟩ fun receipt hreceipt =>
      ⟨(htest receipt hreceipt).mpr htrue, hnone hderivation receipt hreceipt⟩
  · obtain ⟨parent, hparent⟩ := Option.isSome_iff_exists.mp hsome
    refine .derived hschema parent ⟨hfalse, hparent⟩ fun receipt hreceipt =>
      ⟨hnotTest hfalse receipt hreceipt, ?_⟩
    have hshared := (hloaded receipt hreceipt).2.2
    rw [hparent] at hshared
    obtain ⟨binding, hbinding, rfl⟩ := Option.map_eq_some_iff.mp hshared
    exact ⟨binding, hbinding, rfl, rfl, rfl, rfl⟩

/-- The receipt found for a task is the task's: the receipt's own check looks the
task up by the same id, and ids are distinct. -/
theorem receiptOf_of_accepted {task : EmbeddingTaskV2} {receipt : VectorResultReceipt}
    (htasks : (plan.tasks.map (·.taskId)).Nodup) (hmem : task ∈ plan.tasks)
    (hid : receipt.taskId = task.taskId)
    (h : receipt.validateAgainstV2 prims plan = .ok ()) : ReceiptOf task receipt := by
  obtain ⟨-, other, haccepted⟩ := VectorResultReceipt.validateAgainstV2_eq_ok.mp h
  obtain ⟨hother, hotherId⟩ := (EmbeddingPlanV2.task_eq_some htasks).mp haccepted.task_eq
  obtain rfl : other = task := List.inj_on_of_nodup_map htasks hother hmem (hotherId.trans hid)
  exact ⟨hid, haccepted.ordinalStart, haccepted.ordinalEnd, haccepted.path, haccepted.rows,
    haccepted.vectorOrder⟩

/-- **An accepted result set covers the plan.** Its receipts match the tasks one
to one, their vector objects in plan order hold the documents' rows in document
order, and all receipts are of the kind the manifest states. -/
theorem validateV2_covers (h : manifest.validateV2 prims plan loaded = .ok ()) :
    (∃ ordered entries, InPlanOrder plan manifest loaded ordered entries) ∧
      OneKind manifest loaded := by
  have haccepted := validateV2_eq_ok.mp h
  have htasks := EmbeddingPlanV2.tasksAccepted haccepted.plan_ok
  obtain ⟨implementation, hresults⟩ := haccepted.results
  -- the receipts in the order of the tasks, then the entries in the order of the receipts
  obtain ⟨ordered, hordered, hmatch⟩ : ∃ ordered, ordered.Perm loaded ∧
      List.Forall₂ (fun task receipt => task ∈ plan.tasks ∧ receipt.taskId = task.taskId ∧
        ∃ entry ∈ manifest.receipts, entry.taskId = task.taskId ∧
          ResultAccepted prims plan manifest implementation task receipt entry)
        plan.tasks ordered := by
    refine exists_perm_forall₂ htasks.ids_nodup haccepted.loaded_length.le (fun _ _ hrel => hrel.2.1) ?_
    intro task htask
    obtain ⟨entry, hentry, receipt, hreceipt, hentryId, hreceiptId, hresult⟩ :=
      hresults task htask
    exact ⟨receipt, hreceipt, htask, hreceiptId, entry, hentry, hentryId, hresult⟩
  have hreceiptOf : List.Forall₂ ReceiptOf plan.tasks ordered :=
    hmatch.imp fun task receipt ⟨htask, hid, entry, _, _, hresult⟩ =>
      receiptOf_of_accepted htasks.ids_nodup htask hid hresult.accepted
  have hshared : ∀ receipt ∈ ordered, ∃ task entry, entry ∈ manifest.receipts ∧
      entry.taskId = receipt.taskId ∧
        ResultAccepted prims plan manifest implementation task receipt entry := by
    intro receipt hreceipt
    obtain ⟨i, hi, rfl⟩ := List.mem_iff_getElem.mp hreceipt
    obtain ⟨-, hid, entry, hentry, hentryId, hresult⟩ := hmatch.get (hmatch.length_eq ▸ hi) hi
    exact ⟨_, entry, hentry, hentryId.trans hid.symm, hresult⟩
  obtain ⟨entries, hentriesPerm, hentryOf⟩ : ∃ entries, entries.Perm manifest.receipts ∧
      List.Forall₂ EntryOf ordered entries := by
    have hids : (ordered.map (·.taskId)).Nodup := (hordered.map _).nodup_iff.mpr haccepted.loaded_nodup
    refine exists_perm_forall₂ hids ?_ (fun _ _ hrel => hrel.taskId) ?_
    · rw [haccepted.receipts_length, hmatch.length_eq]
    · intro receipt hreceipt
      obtain ⟨_, entry, hentry, hentryId, hresult⟩ := hshared receipt hreceipt
      exact ⟨entry, hentry, hentryId, hresult.digest⟩
  refine ⟨⟨ordered, entries, htasks.ids_nodup, hordered, hentriesPerm, hreceiptOf, hentryOf, ?_⟩,
    oneKind_of_fields implementation haccepted.kind ?_⟩
  · -- the ranges of the receipts are those of the tasks, which tile the documents
    have htiles : Tiles (fun receipt : VectorResultReceipt => (receipt.ordinalStart : ℕ))
        (fun receipt => (receipt.ordinalEnd : ℕ)) 0 ordered plan.documentCount :=
      htasks.tiles.forall₂ (hreceiptOf.imp fun task receipt hof => by
        rw [hof.ordinalStart, hof.ordinalEnd]
        exact ⟨rfl, rfl⟩)
    rw [← htiles.flatMap_range]
    refine List.flatMap_congr fun receipt hreceipt => ?_
    obtain ⟨i, hi, rfl⟩ := List.mem_iff_getElem.mp hreceipt
    have hof := hreceiptOf.get (hreceiptOf.length_eq ▸ hi) hi
    have hrows := hof.rows
    rw [← hof.ordinalStart, ← hof.ordinalEnd] at hrows
    rw [VectorResultReceipt.rowOrdinals]
    simp only [List.get_eq_getElem] at hrows
    rw [hrows]
  · intro receipt hreceipt
    obtain ⟨_, _, -, -, hresult⟩ := hshared receipt (hordered.mem_iff.mpr hreceipt)
    exact ⟨hresult.implementation_eq, hresult.testOnly, hresult.derivation⟩

end Coverage

/-! ### The results of the two tasks -/

/-- The receipt of one executor for a task of the sample plan. -/
def sampleReceiptDraft (task : EmbeddingTaskV2) (rows bytes : U64) : VectorResultReceipt where
  schemaVersion := vectorReceiptSchema
  componentSha256 := hexDigest 0
  planSha256 := samplePlan.componentSha256
  preparedCorpusSha256 := samplePlan.preparedCorpusSha256
  embeddingProfileSha256 := sampleProfile.component.sha256
  taskId := task.taskId
  ordinalStart := task.ordinalStart
  ordinalEnd := task.ordinalEnd
  embeddingInputOrderSha256 := task.embeddingInputOrderSha256
  vector := ⟨task.resultPath, rows, bytes, hexDigest 13, 2, "f32le",
    task.embeddingInputOrderSha256⟩
  executor := ⟨sampleComponent "executor", sampleComponent "runtime", "model", 1, 0, 64, 5, true⟩
  derivation := none
  finiteValuesValidated := true
  normalizationValidated := true

def sampleReceipt (result : EmbeddingTaskV2 × U64 × U64) : VectorResultReceipt :=
  let draft := sampleReceiptDraft result.1 result.2.1 result.2.2
  { draft with componentSha256 := canonicalDigest samplePrimitives (.mkObject draft.body) }

/-- The tasks, each with the rows and the bytes of its vector object. -/
def sampleResults : List (EmbeddingTaskV2 × U64 × U64) := samplePlan.tasks.zip [(1, 72), (2, 80)]

/-- The receipts, not in plan order. -/
def sampleReceipts : List VectorResultReceipt := sampleResults.reverse.map sampleReceipt

def sampleResultSetDraft : EmbeddingResultSetManifest where
  schemaVersion := resultSetSchema
  componentSha256 := hexDigest 0
  planSha256 := samplePlan.componentSha256
  preparedCorpusSha256 := samplePlan.preparedCorpusSha256
  embeddingProfileSha256 := sampleProfile.component.sha256
  documentCount := 3
  documentOrderSha256 := hexDigest 3
  receipts := sampleResults.map fun result =>
    ⟨result.1.taskId, result.1.receiptPath, (sampleReceipt result).componentSha256⟩
  derivation := none
  testOnly := false

def sampleResultSet : EmbeddingResultSetManifest :=
  { sampleResultSetDraft with
    componentSha256 := canonicalDigest samplePrimitives (.mkObject sampleResultSetDraft.body) }

theorem sampleReceipt_accepted {result : EmbeddingTaskV2 × U64 × U64}
    (hresult : result ∈ sampleResults) :
    (sampleReceipt result).validateAgainstV2 samplePrimitives samplePlan = .ok () := by
  have hids := (EmbeddingPlanV2.tasksAccepted samplePlan_validate).ids_nodup
  have htask : result.1 ∈ samplePlan.tasks := (List.of_mem_zip hresult).1
  have hnumbers : ∀ result ∈ sampleResults,
      forM [result.1.ordinalStart, result.1.ordinalEnd, result.2.1, result.2.2, 1, 0, 64, 5]
        requireSafeU64 = .ok () ∧
      (result.2.1 : ℕ) = result.1.rowCount ∧
      (result.2.2 : ℕ) = 64 + result.2.1 * ((2 : U32) : ℕ) * 4 := by
    decide +kernel
  obtain ⟨hvalues, hrows, hbytes⟩ := hnumbers result hresult
  simp only [forM_eq_ok, requireSafeU64_eq_ok] at hvalues
  have hcomponent : ∀ id, id ≠ "" → (sampleComponent id).validate = .ok () := by
    intro id hid
    rw [ComponentRef.validate, sampleComponent, requireText, throwIf_bind_of_not hid]
    rfl
  have hexecutor : (sampleReceipt result).invalidExecutor = false := by
    simp [VectorResultReceipt.invalidExecutor, VectorResultReceipt.testOnly,
      VectorResultReceipt.derived, sampleReceipt, sampleReceiptDraft, sampleComponent,
      testVectorExecutorId]
  exact VectorResultReceipt.validateAgainstV2_eq_ok.mpr ⟨samplePlan_validate, result.1, hvalues,
    .inl ⟨rfl, rfl⟩, (EmbeddingPlanV2.task_eq_some hids).mpr ⟨htask, rfl⟩, rfl, rfl, rfl, rfl, rfl,
    rfl, rfl, hrows, rfl, rfl, rfl, ⟨rfl, rfl⟩, hcomponent _ (by decide), hcomponent _ (by decide),
    show "model" ≠ "" by decide, by simp [sampleReceipt, sampleReceiptDraft],
    hexecutor, hbytes,
    VectorResultReceipt.digest_setDigest _ (sampleReceiptDraft result.1 result.2.1 result.2.2)⟩

/-- The sample result set is accepted, and covers the sample plan. -/
theorem sampleResultSet_covers :
    sampleResultSet.validateV2 samplePrimitives samplePlan sampleReceipts = .ok () ∧
      (∃ ordered entries,
        InPlanOrder samplePlan sampleResultSet sampleReceipts ordered entries) ∧
      OneKind sampleResultSet sampleReceipts := by
  have hids := (EmbeddingPlanV2.tasksAccepted samplePlan_validate).ids_nodup
  have htasks : sampleResults.map Prod.fst = samplePlan.tasks := List.map_fst_zip (by decide)
  have hentries : sampleResultSet.receipts.map (·.taskId) = samplePlan.tasks.map (·.taskId) := by
    rw [← htasks, List.map_map, sampleResultSet, sampleResultSetDraft, List.map_map]
    rfl
  have hreceipts : sampleReceipts.map (·.taskId) =
      (samplePlan.tasks.map (·.taskId)).reverse := by
    rw [← htasks, List.map_map, sampleReceipts, List.map_map, ← List.map_reverse]
    rfl
  have haccepted : ResultSetAccepted samplePrimitives samplePlan sampleResultSet
      sampleReceipts := by
    refine ⟨samplePlan_validate, show 3 ≤ maxSafeJsonInteger by decide, .inl ⟨rfl, rfl, rfl⟩, rfl,
      rfl, rfl, rfl, rfl, rfl, rfl, by simp [sampleResultSet, sampleResultSetDraft],
      hentries ▸ hids, ?_, ?_, ?_⟩
    · rw [hreceipts, List.nodup_reverse]
      exact hids
    · refine ⟨some (sampleComponent "executor"), fun task htask => ?_⟩
      rw [← htasks] at htask
      obtain ⟨result, hresult, rfl⟩ := List.mem_map.mp htask
      exact ⟨_, List.mem_map_of_mem hresult, _, List.mem_map_of_mem (List.mem_reverse.mpr hresult),
        rfl, rfl, sampleReceipt_accepted hresult, rfl, rfl, rfl, rfl, rfl⟩
    · exact EmbeddingResultSetManifest.digest_setDigest _ sampleResultSetDraft
  have h := validateV2_eq_ok.mpr haccepted
  exact ⟨h, validateV2_covers h⟩

end LivefireRag.Pipeline
