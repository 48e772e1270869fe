import LivefireRag.Lib.Tiling
import LivefireRag.Pipeline.TokenPlan

/-!
# What the checks of a plan accept

Each check of a plan returns exactly when the structure named after it holds,
so an accepted plan is taken apart by field and a plan under construction is
accepted by giving the fields:

* `SliceAccepted`, `TaskAccepted` — one slice, one task;
* `TasksAccepted` — all tasks: they tile `[0, document_count)`, and no id and no
  path occurs twice;
* `CountMetadataAccepted` — the token statistics.

`EmbeddingPlanV2.tasksAccepted` is the part of an accepted plan that everything
downstream rests on.
-/

namespace LivefireRag.Pipeline

open Fallible Machine Tiling

/-! ### Slices -/

/-- The checks of one slice. -/
structure SliceAccepted (maximumInputTokens : U32) (slice : EmbeddingInputSliceV2) : Prop where
  rowOffset_safe : (slice.rowOffset : ℕ) ≤ maxSafeJsonInteger
  rows_safe : (slice.rows : ℕ) ≤ maxSafeJsonInteger
  tokens_safe : (slice.tokenCount : ℕ) ≤ maxSafeJsonInteger
  rows_pos : 0 < (slice.rows : ℕ)
  rows_le_tokens : (slice.rows : ℕ) ≤ slice.tokenCount
  maximum_pos : 0 < (slice.maximumDocumentTokens : ℕ)
  maximum_le_input : slice.maximumDocumentTokens ≤ maximumInputTokens
  maximum_le_tokens : (slice.maximumDocumentTokens : ℕ) ≤ slice.tokenCount

theorem validateV2Slice_eq_ok {maximumInputTokens : U32} (sum : ℕ)
    (slice : EmbeddingInputSliceV2) (total : ℕ) :
    validateV2Slice maximumInputTokens sum slice = .ok total ↔
      SliceAccepted maximumInputTokens slice ∧ sum + slice.rows < 2 ^ 64 ∧
        sum + slice.rows = total := by
  simp only [validateV2Slice, bind_eq_ok, exists_unit, forM_eq_ok, List.forall_mem_cons, requireSafeU64_eq_ok,
    throwIf_eq_ok, orThrow_eq_ok, checkedAdd_eq_some, not_or, not_lt, List.not_mem_nil,
    false_imp_iff, forall_const, and_true]
  rw [← and_assoc]
  refine and_congr_left' ⟨?_, ?_⟩
  · rintro ⟨⟨h1, h2, h3⟩, h4, -, h6, h7, h8, h9⟩
    exact ⟨h1, h2, h3, Nat.pos_of_ne_zero h4, h6, Nat.pos_of_ne_zero h7, h8, h9⟩
  · rintro ⟨h1, h2, h3, h4, h6, h7, h8, h9⟩
    exact ⟨⟨h1, h2, h3⟩, h4.ne', (h4.trans_le h6).ne', h6, h7.ne', h8, h9⟩

/-- The rows of the slices of one task, added up. -/
theorem validateV2Slices_eq_ok {maximumInputTokens : U32} {slices : List EmbeddingInputSliceV2}
    {total : ℕ} :
    slices.foldlM (validateV2Slice maximumInputTokens) 0 = .ok total ↔
      (∀ slice ∈ slices, SliceAccepted maximumInputTokens slice) ∧
        (slices.map fun slice => (slice.rows : ℕ)).sum < 2 ^ 64 ∧
        (slices.map fun slice => (slice.rows : ℕ)).sum = total := by
  rw [foldlM_add_eq_ok validateV2Slice_eq_ok (Nat.two_pow_pos 64)]
  simp only [Nat.zero_add]

/-! ### Tasks -/

section Tasks

variable (prims : Primitives) (limits : TaskLimits) (identity : TaskIdentityContext)

/-- The id the identity of a task prescribes. -/
def EmbeddingTaskV2.expectedId (task : EmbeddingTaskV2) : Digest :=
  embeddingTaskV2Id prims identity task.ordinalStart task.ordinalEnd
    task.embeddingInputOrderSha256 task.documentTokenCountsSha256 task.tokenCount

/-- The checks of one task that do not look at the tasks before it. -/
structure TaskAccepted (task : EmbeddingTaskV2) : Prop where
  start_safe : (task.ordinalStart : ℕ) ≤ maxSafeJsonInteger
  end_safe : (task.ordinalEnd : ℕ) ≤ maxSafeJsonInteger
  tokens_safe : (task.tokenCount : ℕ) ≤ maxSafeJsonInteger
  slices : ∀ slice ∈ task.inputSlices, SliceAccepted limits.maximumInputTokens slice
  id : task.taskId = (task.expectedId prims identity).val
  start_lt_end : (task.ordinalStart : ℕ) < task.ordinalEnd
  rows_sum : (task.inputSlices.map fun slice => (slice.rows : ℕ)).sum = task.rowCount
  rows_le : task.rowCount ≤ limits.maximumTaskDocuments
  rows_le_tokens : task.rowCount ≤ task.tokenCount
  tokens_le : task.tokenCount ≤ limits.maximumTaskTokens
  tokens_sum : (task.inputSlices.map fun slice => (slice.tokenCount : ℕ)).sum = task.tokenCount
  maximum : (task.inputSlices.map (·.maximumDocumentTokens)).max? = some task.maximumDocumentTokens
  maximum_le_input : task.maximumDocumentTokens ≤ limits.maximumInputTokens
  maximum_le_tokens : (task.maximumDocumentTokens : ℕ) ≤ task.tokenCount

theorem TaskAccepted.slices_ne_nil {prims : Primitives} {limits : TaskLimits}
    {identity : TaskIdentityContext} {task : EmbeddingTaskV2}
    (h : TaskAccepted prims limits identity task) : task.inputSlices ≠ [] := by
  intro hnil
  have hmax := h.maximum
  simp [hnil] at hmax

/-- One step of the pass over the tasks: the task is accepted, starts where the
task before it ended, and brings a new id and two new paths. -/
theorem validateV2Task_eq_ok {scan scan' : TaskScan} {task : EmbeddingTaskV2} :
    validateV2Task prims limits identity scan task = .ok scan' ↔
      TaskAccepted prims limits identity task ∧ (task.ordinalStart : ℕ) = scan.next ∧
        task.taskId ∉ scan.ids ∧ task.resultPath ∉ scan.paths ∧
        task.receiptPath ∉ task.resultPath :: scan.paths ∧
        scan' = ⟨task.ordinalEnd, task.taskId :: scan.ids,
          task.receiptPath :: task.resultPath :: scan.paths⟩ := by
  simp only [validateV2Task, bind_eq_ok, exists_unit, requireSafeU64_eq_ok,
    validateV2Slices_eq_ok, checkedSum_eq_ok, orThrow_eq_ok, throwIf_eq_ok, pure_eq_ok, not_or,
    not_not, not_lt, not_le]
  constructor
  · rintro ⟨h1, h2, h3, _, ⟨h4, -, rfl⟩, _, ⟨-, rfl⟩, max, hmax,
      ⟨h5, h6, h7, h8, h9, -, -, h12, h13, h14, rfl, h16, h17, h18, h19, h20⟩, rfl⟩
    exact ⟨⟨h1, h2, h3, h4, h5, h7, h8.symm, h9, h12, h13, h14.symm, hmax, h16, h17⟩,
      h6, h18, h19, h20, rfl⟩
  · rintro ⟨h, hstart, hid, hresult, hreceipt, rfl⟩
    have hrows : task.rowCount < 2 ^ 64 := by
      have := task.ordinalEnd.isLt
      unfold EmbeddingTaskV2.rowCount
      omega
    have htokens : (task.tokenCount : ℕ) ≠ 0 := by
      have h1 := h.start_lt_end
      have h2 := h.rows_le_tokens
      unfold EmbeddingTaskV2.rowCount at h2
      omega
    refine ⟨h.start_safe, h.end_safe, h.tokens_safe, _, ⟨h.slices, ?_, rfl⟩, _, ⟨?_, rfl⟩, _,
      h.maximum, ?_, rfl⟩
    · rw [h.rows_sum]
      exact hrows
    · rw [h.tokens_sum]
      exact task.tokenCount.isLt
    · exact ⟨h.id, hstart, h.start_lt_end, h.rows_sum.symm, h.rows_le, h.slices_ne_nil, htokens,
        h.rows_le_tokens, h.tokens_le, h.tokens_sum.symm, rfl, h.maximum_le_input,
        h.maximum_le_tokens, hid, hresult, hreceipt⟩

/-- The two output paths of each task, in plan order. -/
def outputPaths (tasks : List EmbeddingTaskV2) : List SafeRelativePath :=
  tasks.flatMap fun task => [task.resultPath, task.receiptPath]

/-- The pass over the tasks from any scan, by induction on the tasks: they tile
from where the scan stands, and their ids and paths are new. -/
theorem validateV2Tasks_scan (tasks : List EmbeddingTaskV2) (scan : TaskScan) (stop : ℕ) :
    (∃ scan', tasks.foldlM (validateV2Task prims limits identity) scan = .ok scan' ∧
        scan'.next = stop) ↔
      (∀ task ∈ tasks, TaskAccepted prims limits identity task) ∧
        Tiles (fun task : EmbeddingTaskV2 => (task.ordinalStart : ℕ))
          (fun task => (task.ordinalEnd : ℕ)) scan.next tasks stop ∧
        ((tasks.map (·.taskId)).Nodup ∧ ∀ task ∈ tasks, task.taskId ∉ scan.ids) ∧
        (outputPaths tasks).Nodup ∧ ∀ path ∈ outputPaths tasks, path ∉ scan.paths := by
  induction tasks generalizing scan with
  | nil =>
    simp only [List.foldlM_nil, pure_eq_ok, exists_eq_left', outputPaths]
    simp
  | cons task tasks ih =>
    simp only [List.foldlM_cons, bind_eq_ok, validateV2Task_eq_ok, List.forall_mem_cons,
      tiles_cons, List.map_cons, List.nodup_cons]
    constructor
    · rintro ⟨scan', ⟨_, ⟨hacc, hstart, hid, hresult, hreceipt, rfl⟩, hrun⟩, hstop⟩
      obtain ⟨haccs, htiles, ⟨hids, hids'⟩, hpaths, hpaths'⟩ := (ih _).mp ⟨scan', hrun, hstop⟩
      simp only [List.mem_cons, not_or] at hids' hpaths' hreceipt
      refine ⟨⟨hacc, haccs⟩, ⟨hstart, hacc.start_lt_end, htiles⟩,
        ⟨⟨?_, hids⟩, hid, fun t ht => (hids' t ht).2⟩, ?_, ?_⟩
      · rintro hmem
        obtain ⟨other, hother, heq⟩ := List.mem_map.mp hmem
        exact (hids' other hother).1 heq
      · refine List.nodup_append.mpr ⟨?_, hpaths, ?_⟩
        · rw [List.nodup_cons, List.mem_singleton]
          exact ⟨fun heq => hreceipt.1 heq.symm, List.nodup_singleton _⟩
        · intro path hpath other hother heq
          have hnew := hpaths' other hother
          simp only [List.mem_cons, List.not_mem_nil, or_false] at hpath
          rcases hpath with rfl | rfl
          · exact hnew.2.1 heq.symm
          · exact hnew.1 heq.symm
      · intro path hpath
        rcases List.mem_append.mp hpath with hpath | hpath
        · simp only [List.mem_cons, List.not_mem_nil, or_false] at hpath
          rcases hpath with rfl | rfl
          · exact hresult
          · exact hreceipt.2
        · exact (hpaths' path hpath).2.2
    · rintro ⟨⟨hacc, haccs⟩, ⟨hstart, -, htiles⟩, ⟨⟨hid, hids⟩, hfresh, hfreshs⟩, hpaths, hnew⟩
      obtain ⟨hpair, hpaths, hdisjoint⟩ := List.nodup_append.mp hpaths
      have hmine : ∀ path ∈ [task.resultPath, task.receiptPath], path ∉ scan.paths :=
        fun path hpath => hnew path (List.mem_append_left _ hpath)
      have hresult := hmine task.resultPath (by simp)
      have hreceipt := hmine task.receiptPath (by simp)
      have hne : task.receiptPath ≠ task.resultPath := by
        simpa [eq_comm] using hpair
      -- the ids and paths of the later tasks are new to the next scan too
      have hids' : ∀ other ∈ tasks, other.taskId ∉ task.taskId :: scan.ids := by
        intro other hother
        rw [List.mem_cons, not_or]
        exact ⟨fun heq => hid (heq ▸ List.mem_map_of_mem hother), hfreshs other hother⟩
      have hpaths' : ∀ path ∈ outputPaths tasks,
          path ∉ task.receiptPath :: task.resultPath :: scan.paths := by
        intro path hpath
        simp only [List.mem_cons, not_or]
        exact ⟨fun heq => hdisjoint _ (by simp) _ hpath heq.symm,
          fun heq => hdisjoint _ (by simp) _ hpath heq.symm,
          hnew path (List.mem_append_right _ hpath)⟩
      obtain ⟨scan', hrun, hstop⟩ := (ih ⟨task.ordinalEnd, task.taskId :: scan.ids,
        task.receiptPath :: task.resultPath :: scan.paths⟩).mpr
          ⟨haccs, htiles, ⟨hids, hids'⟩, hpaths, hpaths'⟩
      exact ⟨scan', ⟨_, ⟨hacc, hstart, hfresh, hresult, by simp [hne, hreceipt], rfl⟩, hrun⟩,
        hstop⟩

/-- The checks of the task list. -/
structure TasksAccepted (tasks : List EmbeddingTaskV2) (documentCount : ℕ) : Prop where
  accepted : ∀ task ∈ tasks, TaskAccepted prims limits identity task
  tiles : Tiles (fun task : EmbeddingTaskV2 => (task.ordinalStart : ℕ))
    (fun task => (task.ordinalEnd : ℕ)) 0 tasks documentCount
  ids_nodup : (tasks.map (·.taskId)).Nodup
  paths_nodup : (outputPaths tasks).Nodup

theorem validateV2Tasks_eq_ok {tasks : List EmbeddingTaskV2} {documentCount : U64} {u : Unit} :
    validateV2Tasks prims tasks documentCount limits identity = .ok u ↔
      TasksAccepted prims limits identity tasks documentCount := by
  have hscan := validateV2Tasks_scan prims limits identity tasks ⟨0, [], []⟩ documentCount
  simp only [List.not_mem_nil, not_false_eq_true, implies_true, and_true] at hscan
  simp only [validateV2Tasks, bind_eq_ok, throwIf_eq_ok, not_or, not_not]
  constructor
  · rintro ⟨scan, hrun, hnext, -⟩
    obtain ⟨h1, h2, h3, h4⟩ := hscan.mp ⟨scan, hrun, hnext⟩
    exact ⟨h1, h2, h3, h4⟩
  · rintro ⟨h1, h2, h3, h4⟩
    obtain ⟨scan, hrun, hnext⟩ := hscan.mpr ⟨h1, h2, h3, h4⟩
    -- an empty task list tiles the empty interval only
    have hempty := h2.eq_nil_iff
    refine ⟨scan, hrun, hnext, ?_⟩
    rw [ne_eq, hempty]
    omega

end Tasks

/-! ### Statistics -/

/-- The checks of the token statistics and of the count object. -/
structure CountMetadataAccepted (plan : EmbeddingPlanV2) : Prop where
  total_safe : (plan.tokenStatistics.totalTokens : ℕ) ≤ maxSafeJsonInteger
  bytes_safe : (plan.documentTokenCountsObject.bytes : ℕ) ≤ maxSafeJsonInteger
  path : plan.documentTokenCountsObject.path.val = documentTokenCountsPath
  rows : plan.documentTokenCountsObject.rows = plan.documentCount
  bytes : (plan.documentTokenCountsObject.bytes : ℕ) = plan.documentCount * 4
  digest : plan.documentTokenCountsObject.documentTokenCountsSha256 =
    plan.documentTokenCountsSha256
  total : (plan.tasks.map fun task => (task.tokenCount : ℕ)).sum = plan.tokenStatistics.totalTokens
  maximum : (plan.tasks.map (·.maximumDocumentTokens)).max?.getD 0 =
    plan.tokenStatistics.maximumTokens
  maximum_le_input : plan.tokenStatistics.maximumTokens ≤ plan.embeddingProfile.maximumInputTokens
  p50_le_p90 : plan.tokenStatistics.p50Tokens ≤ plan.tokenStatistics.p90Tokens
  p90_le_p95 : plan.tokenStatistics.p90Tokens ≤ plan.tokenStatistics.p95Tokens
  p95_le_p99 : plan.tokenStatistics.p95Tokens ≤ plan.tokenStatistics.p99Tokens
  p99_le_maximum : plan.tokenStatistics.p99Tokens ≤ plan.tokenStatistics.maximumTokens
  empty_iff : (plan.documentCount : ℕ) = 0 ↔
    (plan.tokenStatistics.totalTokens : ℕ) = 0 ∧ plan.tokenStatistics.p50Tokens = 0 ∧
      plan.tokenStatistics.p90Tokens = 0 ∧ plan.tokenStatistics.p95Tokens = 0 ∧
      plan.tokenStatistics.p99Tokens = 0 ∧ plan.tokenStatistics.maximumTokens = 0

theorem validateTokenCountMetadata_eq_ok {plan : EmbeddingPlanV2} {u : Unit} :
    validateTokenCountMetadata plan = .ok u ↔
      CountMetadataAccepted plan ∧ (plan.documentCount : ℕ) ≤ maxSafeJsonInteger := by
  simp only [validateTokenCountMetadata, bind_eq_ok, exists_unit, forM_eq_ok,
    List.forall_mem_cons, requireSafeU64_eq_ok, List.not_mem_nil, false_imp_iff, forall_const,
    and_true, orThrow_eq_ok, checkedMul_eq_some, checkedSum_eq_ok, throwIf_eq_ok, not_or, not_not,
    not_lt]
  constructor
  · rintro ⟨⟨h1, h2, h3⟩, _, ⟨-, rfl⟩, _, ⟨-, rfl⟩, h4, h5, h6, h7, h8, h9, h10, h11, h12, h13,
      h14, h15⟩
    exact ⟨⟨h3, h2, h4, h5, h6, h7, h8.symm, h9.symm, h10, h11, h12, h13, h14, h15⟩, h5 ▸ h1⟩
  · rintro ⟨⟨h3, h2, h4, h5, h6, h7, h8, h9, h10, h11, h12, h13, h14, h15⟩, h1⟩
    have hbytes := plan.documentTokenCountsObject.bytes.isLt
    have htotal := plan.tokenStatistics.totalTokens.isLt
    exact ⟨⟨h5 ▸ h1, h2, h3⟩, _, ⟨h6 ▸ hbytes, rfl⟩, _, ⟨h8 ▸ htotal, rfl⟩, h4, h5, h6, h7,
      h8.symm, h9.symm, h10, h11, h12, h13, h14, h15⟩

/-! ### Plans -/

/-- A plan is identified by the digest of its other fields. -/
theorem EmbeddingPlanV2.componentDigest_eq {prims : Primitives} (plan : EmbeddingPlanV2) :
    componentDigest prims (toJson plan) = .ok (canonicalDigest prims (.mkObject plan.body)) :=
  componentDigest_sealedObject prims (by simp [EmbeddingPlanV2.body])

/-- **Acceptance of a plan**, check by check. -/
theorem EmbeddingPlanV2.validate_eq_ok {prims : Primitives} {plan : EmbeddingPlanV2} {u : Unit} :
    plan.validate prims = .ok u ↔
      (plan.documentCount : ℕ) ≤ maxSafeJsonInteger ∧
      (plan.maximumTaskTokens : ℕ) ≤ maxSafeJsonInteger ∧
      plan.schemaVersion = embeddingPlanV2Schema ∧ (plan.maximumTaskTokens : ℕ) ≠ 0 ∧
      (plan.maximumTaskDocuments : ℕ) ≠ 0 ∧ plan.dataset.validate = .ok () ∧
      plan.embeddingProfile.validate = .ok () ∧
      (∃ input, formatDocumentInputExact plan.embeddingProfile.documentFormat "validation" =
        .ok input) ∧
      plan.executableTokenizer.validateForProfile plan.embeddingProfile = .ok () ∧
      CountMetadataAccepted plan ∧
      TasksAccepted prims plan.limits plan.identityContext plan.tasks plan.documentCount ∧
      plan.componentSha256 = canonicalDigest prims (.mkObject plan.body) := by
  simp only [EmbeddingPlanV2.validate, bind_eq_ok, exists_unit, requireSafeU64_eq_ok,
    validateTokenCountMetadata_eq_ok, validateV2Tasks_eq_ok, throwIf_eq_ok, not_or, not_not,
    plan.componentDigest_eq, Except.ok.injEq, exists_eq_left']
  constructor
  · rintro ⟨h1, h2, ⟨h3, h4, h5⟩, h6, h7, input, h8, h9, ⟨h10, -⟩, h11, h12⟩
    exact ⟨h1, h2, h3, h4, h5, h6, h7, ⟨input, h8⟩, h9, h10, h11, h12⟩
  · rintro ⟨h1, h2, h3, h4, h5, h6, h7, ⟨input, h8⟩, h9, h10, h11, h12⟩
    exact ⟨h1, h2, ⟨h3, h4, h5⟩, h6, h7, input, h8, h9, ⟨h10, h1⟩, h11, h12⟩

/-- The plan with its own digest filled in. -/
def EmbeddingPlanV2.withDigest (prims : Primitives) (plan : EmbeddingPlanV2) : EmbeddingPlanV2 :=
  { plan with componentSha256 := canonicalDigest prims (.mkObject plan.body) }

/-- Looking a task up by its id, in a plan whose ids are distinct. -/
theorem EmbeddingPlanV2.task_eq_some {plan : EmbeddingPlanV2} {taskId : String}
    {task : EmbeddingTaskV2} (h : (plan.tasks.map (·.taskId)).Nodup) :
    plan.task taskId = some task ↔ task ∈ plan.tasks ∧ task.taskId = taskId := by
  have hfind : ∀ task, plan.task taskId = some task → task ∈ plan.tasks ∧ task.taskId = taskId :=
    fun task hsome => ⟨List.mem_of_find?_eq_some hsome, by simpa using List.find?_some hsome⟩
  refine ⟨hfind task, ?_⟩
  rintro ⟨hmem, hid⟩
  have hsome : (plan.task taskId).isSome := List.find?_isSome.mpr ⟨task, hmem, by simpa using hid⟩
  obtain ⟨found, hfound⟩ := Option.isSome_iff_exists.mp hsome
  obtain ⟨hfoundMem, hfoundId⟩ := hfind found hfound
  rw [hfound, List.inj_on_of_nodup_map h hfoundMem hmem (hfoundId.trans hid.symm)]

theorem EmbeddingPlanV2.digest_withDigest (prims : Primitives) (plan : EmbeddingPlanV2) :
    (plan.withDigest prims).componentSha256 =
      canonicalDigest prims (.mkObject (plan.withDigest prims).body) := rfl

@[simp] theorem EmbeddingPlanV2.body_withDigest (prims : Primitives) (plan : EmbeddingPlanV2) :
    (plan.withDigest prims).body = plan.body := rfl

/-- A plan is sealed when it is accepted with its digest filled in. -/
theorem EmbeddingPlanV2.seal_eq_ok {prims : Primitives} {plan sealed : EmbeddingPlanV2} :
    plan.seal prims = .ok sealed ↔
      sealed = plan.withDigest prims ∧ (plan.withDigest prims).validate prims = .ok () := by
  simp only [EmbeddingPlanV2.seal, plan.componentDigest_eq, bind_eq_ok, exists_unit, pure_eq_ok,
    Except.ok.injEq, exists_eq_left']
  constructor
  · rintro ⟨hvalid, rfl⟩
    exact ⟨rfl, hvalid⟩
  · rintro ⟨rfl, hvalid⟩
    exact ⟨hvalid, rfl⟩

theorem EmbeddingPlanV2.tasksAccepted {prims : Primitives} {plan : EmbeddingPlanV2} {u : Unit}
    (h : plan.validate prims = .ok u) :
    TasksAccepted prims plan.limits plan.identityContext plan.tasks plan.documentCount := by
  obtain ⟨-, -, -, -, -, -, -, -, -, -, htasks, -⟩ := EmbeddingPlanV2.validate_eq_ok.mp h
  exact htasks

end LivefireRag.Pipeline
