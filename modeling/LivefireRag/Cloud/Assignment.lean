import LivefireRag.Lib.Seen
import LivefireRag.Pipeline.PlanSpec

/-!
# Worker assignments

A cloud run cuts the tasks of a plan into contiguous ranges, one for each
worker. An assignment lists the tasks of its range with the keys their outputs
go to; it is checked on its own (`RunpodWorkerAssignment.validate`) and the list
of all assignments is checked against the plan (`validateAssignments`).

Both checks are scans, and both have an exact specification
(`AssignmentAccepted`, `AssignmentsAccepted`). The second one forces a
partition: strung together, the assigned tasks are the tasks of the plan
(`AssignmentsAccepted.tasks_eq`).
-/

namespace LivefireRag.Cloud

open Pipeline Fallible Machine Tiling Seen

/-! ### Identifiers -/

/-- A byte an identifier may contain. -/
def IsIdentifierChar (c : Char) : Prop := c.isAlphanum ∨ c = '.' ∨ c = '_' ∨ c = '-'

instance : DecidablePred IsIdentifierChar := fun c => by unfold IsIdentifierChar; infer_instance

def requireIdentifier (value : String) : Result Unit := do
  requireText value
  throwIf (128 < value.utf8ByteSize ∨ ¬ ∀ c ∈ value.toList, IsIdentifierChar c)
    (.invalid "cloud identifier")

/-- The texts that pass as identifiers. -/
structure IsIdentifier (value : String) : Prop where
  ne_empty : value ≠ ""
  size_le : value.utf8ByteSize ≤ 128
  chars : ∀ c ∈ value.toList, IsIdentifierChar c

@[simp] theorem requireIdentifier_eq_ok {value : String} {u : Unit} :
    requireIdentifier value = .ok u ↔ IsIdentifier value := by
  simp only [requireIdentifier, bind_eq_ok, exists_unit, requireText_eq_ok, throwIf_eq_ok, not_or,
    not_lt, not_not]
  constructor
  · rintro ⟨h1, h2, h3⟩
    exact ⟨h1, h2, h3⟩
  · rintro ⟨h1, h2, h3⟩
    exact ⟨h1, h2, h3⟩

/-- The check on safe integers, for a value of 32 bits. -/
def requireSafeU32 (value : U32) : Result Unit :=
  throwIf (maxSafeJsonInteger < (value : ℕ)) (.invalid "RFC 8785 safe integer")

/-- Every value of 32 bits is a safe integer. -/
@[simp] theorem requireSafeU32_eq_ok (value : U32) : requireSafeU32 value = .ok () := by
  have hlt := value.isLt
  rw [requireSafeU32, throwIf_eq_ok]
  unfold maxSafeJsonInteger
  omega

/-! ### Assigned tasks -/

structure RunpodExpectedTaskOutput where
  taskId : String
  taskOrdinal : U32
  ordinalStart : U64
  ordinalEnd : U64
  tokenCount : U64
  resultKey : SafeRelativePath
  receiptKey : SafeRelativePath
  reportKey : SafeRelativePath
  deriving DecidableEq

instance : ToJson RunpodExpectedTaskOutput := ⟨fun task => .mkObject
  [("task_id", toJson task.taskId), ("task_ordinal", toJson task.taskOrdinal),
    ("ordinal_start", toJson task.ordinalStart), ("ordinal_end", toJson task.ordinalEnd),
    ("token_count", toJson task.tokenCount), ("result_key", toJson task.resultKey),
    ("receipt_key", toJson task.receiptKey), ("report_key", toJson task.reportKey)]⟩

/-- The keys of the outputs of a task. -/
def RunpodExpectedTaskOutput.keys (task : RunpodExpectedTaskOutput) : List SafeRelativePath :=
  [task.resultKey, task.receiptKey, task.reportKey]

structure RunpodWorkerAssignment where
  componentSha256 : Digest
  workerId : String
  /-- The half-open range of the tasks in the plan. -/
  taskStart : U32
  taskEnd : U32
  /-- The half-open range of the documents of these tasks. -/
  ordinalStart : U64
  ordinalEnd : U64
  tokenCount : U64
  tasks : List RunpodExpectedTaskOutput
  deriving DecidableEq

/-- The fields of an assignment other than its own digest. -/
def RunpodWorkerAssignment.body (assignment : RunpodWorkerAssignment) : List (String × Json) :=
  [("worker_id", toJson assignment.workerId), ("task_start", toJson assignment.taskStart),
    ("task_end", toJson assignment.taskEnd), ("ordinal_start", toJson assignment.ordinalStart),
    ("ordinal_end", toJson assignment.ordinalEnd), ("token_count", toJson assignment.tokenCount),
    ("tasks", toJson assignment.tasks)]

instance : ToJson RunpodWorkerAssignment :=
  ⟨fun assignment => sealedObject assignment.componentSha256 assignment.body⟩

@[simp] theorem RunpodWorkerAssignment.body_setDigest (assignment : RunpodWorkerAssignment)
    (digest : Digest) : { assignment with componentSha256 := digest }.body = assignment.body := rfl

/-- The assignment with its own digest filled in. -/
def RunpodWorkerAssignment.withDigest (prims : Primitives) (assignment : RunpodWorkerAssignment) :
    RunpodWorkerAssignment :=
  { assignment with componentSha256 := canonicalDigest prims (.mkObject assignment.body) }

theorem RunpodWorkerAssignment.digest_withDigest (prims : Primitives)
    (assignment : RunpodWorkerAssignment) : (assignment.withDigest prims).componentSha256 =
      canonicalDigest prims (.mkObject (assignment.withDigest prims).body) := rfl

/-- What the pass over the tasks of an assignment has seen. -/
structure AssignmentScan where
  nextTask : ℕ
  nextOrdinal : ℕ
  tokens : ℕ
  ids : List String
  keys : List SafeRelativePath

def validateAssignedTask (scan : AssignmentScan) (task : RunpodExpectedTaskOutput) :
    Result AssignmentScan := do
  requireIdentifier task.taskId
  requireSafeU32 task.taskOrdinal
  forM [task.ordinalStart, task.ordinalEnd, task.tokenCount] requireSafeU64
  throwIf ((task.taskOrdinal : ℕ) ≠ scan.nextTask ∨ (task.ordinalStart : ℕ) ≠ scan.nextOrdinal ∨
      task.ordinalEnd ≤ task.ordinalStart ∨ (task.tokenCount : ℕ) = 0)
    (.invalid "cloud assigned task coverage")
  let ids ← orThrow (insertNew scan.ids task.taskId) (.invalid "cloud assigned task coverage")
  let keys ← orThrow (insertAll scan.keys task.keys) (.invalid "cloud assigned task coverage")
  let nextTask ← orThrow (checkedAdd 32 scan.nextTask 1) (.invalid "cloud task ordinal")
  let tokens ← orThrow (checkedAdd 64 scan.tokens task.tokenCount)
    (.invalid "cloud assignment token count")
  return ⟨nextTask, task.ordinalEnd, tokens, ids, keys⟩

section Hashing

variable (prims : Primitives)

def RunpodWorkerAssignment.validate (assignment : RunpodWorkerAssignment) : Result Unit := do
  requireIdentifier assignment.workerId
  forM [assignment.taskStart, assignment.taskEnd] requireSafeU32
  forM [assignment.ordinalStart, assignment.ordinalEnd, assignment.tokenCount] requireSafeU64
  throwIf (assignment.taskEnd ≤ assignment.taskStart ∨
      assignment.ordinalEnd ≤ assignment.ordinalStart ∨ (assignment.tokenCount : ℕ) = 0 ∨
      (assignment.taskEnd : ℕ) - assignment.taskStart ≠ assignment.tasks.length)
    (.invalid "cloud worker assignment range")
  let scan ← assignment.tasks.foldlM validateAssignedTask
    ⟨assignment.taskStart, assignment.ordinalStart, 0, [], []⟩
  let digest ← componentDigest prims (toJson assignment)
  throwIf (scan.nextTask ≠ assignment.taskEnd ∨ scan.nextOrdinal ≠ assignment.ordinalEnd ∨
      scan.tokens ≠ assignment.tokenCount ∨ assignment.componentSha256 ≠ digest)
    (.invalid "cloud worker assignment binding")

def RunpodWorkerAssignment.seal (assignment : RunpodWorkerAssignment) :
    Result RunpodWorkerAssignment := do
  let digest ← componentDigest prims (toJson assignment)
  let sealed := { assignment with componentSha256 := digest }
  sealed.validate prims
  return sealed

end Hashing

/-! ### What an accepted assignment is -/

/-- The checks of one assigned task alone. -/
structure AssignedTaskAccepted (task : RunpodExpectedTaskOutput) : Prop where
  id : IsIdentifier task.taskId
  start_safe : (task.ordinalStart : ℕ) ≤ maxSafeJsonInteger
  end_safe : (task.ordinalEnd : ℕ) ≤ maxSafeJsonInteger
  tokens_safe : (task.tokenCount : ℕ) ≤ maxSafeJsonInteger
  start_lt_end : (task.ordinalStart : ℕ) < task.ordinalEnd
  tokens_pos : 0 < (task.tokenCount : ℕ)

theorem validateAssignedTask_eq_ok {scan scan' : AssignmentScan}
    {task : RunpodExpectedTaskOutput} :
    validateAssignedTask scan task = .ok scan' ↔
      AssignedTaskAccepted task ∧ (task.taskOrdinal : ℕ) = scan.nextTask ∧
        (task.ordinalStart : ℕ) = scan.nextOrdinal ∧ task.taskId ∉ scan.ids ∧
        Fresh task.keys scan.keys ∧ scan.nextTask + 1 < 2 ^ 32 ∧
        scan.tokens + task.tokenCount < 2 ^ 64 ∧
        scan' = ⟨scan.nextTask + 1, task.ordinalEnd, scan.tokens + task.tokenCount,
          task.taskId :: scan.ids, task.keys.reverse ++ scan.keys⟩ := by
  simp only [validateAssignedTask, bind_eq_ok, exists_unit, requireIdentifier_eq_ok, throwIf_eq_ok,
    forM_eq_ok, List.forall_mem_cons, requireSafeU64_eq_ok, orThrow_eq_ok, checkedAdd_eq_some,
    insertAll_eq_some, insertNew_eq_some, requireSafeU32_eq_ok, true_and, pure_eq_ok, not_or,
    not_not, not_le, Fin.lt_def]
  constructor
  · rintro ⟨h1, ⟨h2, h3, h4, -⟩, ⟨h5, h6, h7, h8⟩, _, ⟨h9, rfl⟩, _, ⟨h10, rfl⟩, _, ⟨h11, rfl⟩, _,
      ⟨h12, rfl⟩, rfl⟩
    exact ⟨⟨h1, h2, h3, h4, h7, Nat.pos_of_ne_zero h8⟩, h5, h6, h9, h10, h11, h12, rfl⟩
  · rintro ⟨h, h5, h6, h9, h10, h11, h12, rfl⟩
    exact ⟨h.id, ⟨h.start_safe, h.end_safe, h.tokens_safe, by simp⟩,
      ⟨h5, h6, h.start_lt_end, h.tokens_pos.ne'⟩, _, ⟨h9, rfl⟩, _, ⟨h10, rfl⟩, _, ⟨h11, rfl⟩, _,
      ⟨h12, rfl⟩, rfl⟩

/-- The pass over the tasks from any scan to a task and a token total that their
widths admit, by induction on the tasks. -/
theorem validateAssignedTasks_scan (tasks : List RunpodExpectedTaskOutput) (scan : AssignmentScan)
    {stopTask total : ℕ} (stopOrdinal : ℕ) (htask : stopTask < 2 ^ 32) (htotal : total < 2 ^ 64) :
    (∃ scan', tasks.foldlM validateAssignedTask scan = .ok scan' ∧ scan'.nextTask = stopTask ∧
        scan'.nextOrdinal = stopOrdinal ∧ scan'.tokens = total) ↔
      (∀ task ∈ tasks, AssignedTaskAccepted task) ∧
        Tiles (fun task : RunpodExpectedTaskOutput => (task.taskOrdinal : ℕ))
          (fun task => (task.taskOrdinal : ℕ) + 1) scan.nextTask tasks stopTask ∧
        Tiles (fun task : RunpodExpectedTaskOutput => (task.ordinalStart : ℕ))
          (fun task => (task.ordinalEnd : ℕ)) scan.nextOrdinal tasks stopOrdinal ∧
        scan.tokens + (tasks.map fun task => (task.tokenCount : ℕ)).sum = total ∧
        Fresh (tasks.map (·.taskId)) scan.ids ∧
        Fresh (tasks.flatMap RunpodExpectedTaskOutput.keys) scan.keys := by
  induction tasks generalizing scan with
  | nil => simp
  | cons task tasks ih =>
    have hrun : (∃ scan', (task :: tasks).foldlM validateAssignedTask scan = .ok scan' ∧
        scan'.nextTask = stopTask ∧ scan'.nextOrdinal = stopOrdinal ∧ scan'.tokens = total) ↔
        ∃ next, validateAssignedTask scan task = .ok next ∧
          ∃ scan', tasks.foldlM validateAssignedTask next = .ok scan' ∧
            scan'.nextTask = stopTask ∧ scan'.nextOrdinal = stopOrdinal ∧ scan'.tokens = total := by
      simp only [List.foldlM_cons, bind_eq_ok]
      constructor
      · rintro ⟨scan', ⟨next, hnext, hscan'⟩, hstops⟩
        exact ⟨next, hnext, scan', hscan', hstops⟩
      · rintro ⟨next, hnext, scan', hscan', hstops⟩
        exact ⟨scan', ⟨next, hnext, hscan'⟩, hstops⟩
    rw [hrun]
    simp only [ih, validateAssignedTask_eq_ok, List.forall_mem_cons, tiles_cons, List.map_cons,
      List.sum_cons, List.flatMap_cons, fresh_append, fresh_cons, ← Nat.add_assoc]
    constructor
    · rintro ⟨_, ⟨haccepted, htaskStart, hstart, hid, hkeys, -, -, rfl⟩, haccepteds, htasks,
        hordinals, hsum, hids, hkeyss⟩
      exact ⟨⟨haccepted, haccepteds⟩, ⟨htaskStart, Nat.lt_succ_self _, htaskStart ▸ htasks⟩,
        ⟨hstart, haccepted.start_lt_end, hordinals⟩, hsum, ⟨hid, hids⟩, hkeys, hkeyss⟩
    · rintro ⟨⟨haccepted, haccepteds⟩, ⟨htaskStart, -, htasks⟩, ⟨hstart, -, hordinals⟩, hsum,
        ⟨hid, hids⟩, hkeys, hkeyss⟩
      have hle := htasks.le
      exact ⟨_, ⟨haccepted, htaskStart, hstart, hid, hkeys, by omega, by omega, rfl⟩, haccepteds,
        htaskStart ▸ htasks, hordinals, hsum, hids, hkeyss⟩

/-- The checks of an assignment. -/
structure AssignmentAccepted (prims : Primitives) (assignment : RunpodWorkerAssignment) :
    Prop where
  worker : IsIdentifier assignment.workerId
  start_safe : (assignment.ordinalStart : ℕ) ≤ maxSafeJsonInteger
  end_safe : (assignment.ordinalEnd : ℕ) ≤ maxSafeJsonInteger
  tokens_safe : (assignment.tokenCount : ℕ) ≤ maxSafeJsonInteger
  start_lt_end : (assignment.taskStart : ℕ) < assignment.taskEnd
  tokens_pos : 0 < (assignment.tokenCount : ℕ)
  tasks : ∀ task ∈ assignment.tasks, AssignedTaskAccepted task
  task_tiles : Tiles (fun task : RunpodExpectedTaskOutput => (task.taskOrdinal : ℕ))
    (fun task => (task.taskOrdinal : ℕ) + 1) assignment.taskStart assignment.tasks
    assignment.taskEnd
  ordinal_tiles : Tiles (fun task : RunpodExpectedTaskOutput => (task.ordinalStart : ℕ))
    (fun task => (task.ordinalEnd : ℕ)) assignment.ordinalStart assignment.tasks
    assignment.ordinalEnd
  tokens_sum : (assignment.tasks.map fun task => (task.tokenCount : ℕ)).sum =
    assignment.tokenCount
  ids_nodup : (assignment.tasks.map (·.taskId)).Nodup
  keys_nodup : (assignment.tasks.flatMap RunpodExpectedTaskOutput.keys).Nodup
  digest : assignment.componentSha256 = canonicalDigest prims (.mkObject assignment.body)

theorem RunpodWorkerAssignment.componentDigest_eq (prims : Primitives)
    (assignment : RunpodWorkerAssignment) : componentDigest prims (toJson assignment) =
      .ok (canonicalDigest prims (.mkObject assignment.body)) :=
  componentDigest_sealedObject prims (by simp [RunpodWorkerAssignment.body])

/-- Tiles of one task each number as many as their range is long. -/
theorem length_of_task_tiles {tasks : List RunpodExpectedTaskOutput} {lo hi : ℕ}
    (h : Tiles (fun task : RunpodExpectedTaskOutput => (task.taskOrdinal : ℕ))
      (fun task => (task.taskOrdinal : ℕ) + 1) lo tasks hi) : tasks.length = hi - lo := by
  have hsum := h.sum_length
  have hones : tasks.map (fun task : RunpodExpectedTaskOutput =>
      (task.taskOrdinal : ℕ) + 1 - task.taskOrdinal) = tasks.map fun _ => 1 :=
    List.map_congr_left fun task _ => by omega
  rw [hones] at hsum
  simpa using hsum

/-- A range with something in it, after the tasks that fill it have been put in
order. -/
theorem ordinalStart_lt_of_tiles {tasks : List RunpodExpectedTaskOutput} {lo hi : ℕ}
    (h : Tiles (fun task : RunpodExpectedTaskOutput => (task.ordinalStart : ℕ))
      (fun task => (task.ordinalEnd : ℕ)) lo tasks hi) (hne : tasks ≠ []) : lo < hi := by
  refine lt_of_le_of_ne h.le fun heq => hne ?_
  exact h.eq_nil_iff.mpr heq

theorem RunpodWorkerAssignment.validate_eq_ok {prims : Primitives}
    {assignment : RunpodWorkerAssignment} {u : Unit} :
    assignment.validate prims = .ok u ↔ AssignmentAccepted prims assignment := by
  have hscan := validateAssignedTasks_scan assignment.tasks
    ⟨assignment.taskStart, assignment.ordinalStart, 0, [], []⟩ assignment.ordinalEnd
    assignment.taskEnd.isLt assignment.tokenCount.isLt
  simp only [Nat.zero_add, fresh_empty] at hscan
  simp only [RunpodWorkerAssignment.validate, bind_eq_ok, exists_unit, requireIdentifier_eq_ok,
    forM_eq_ok, requireSafeU32_eq_ok, List.forall_mem_cons, requireSafeU64_eq_ok, throwIf_eq_ok,
    componentDigest_eq, Except.ok.injEq, exists_eq_left', not_or, not_not, not_le, Fin.lt_def]
  constructor
  · rintro ⟨h1, -, ⟨h2, h3, h4, -⟩, ⟨h5, -, h7, -⟩, scan, hrun, h9, h10, h11, h12⟩
    obtain ⟨h13, h14, h15, h16, h17, h18⟩ := hscan.mp ⟨scan, hrun, h9, h10, h11⟩
    exact ⟨h1, h2, h3, h4, h5, Nat.pos_of_ne_zero h7, h13, h14, h15, h16, h17, h18, h12⟩
  · intro h
    obtain ⟨scan, hrun, h9, h10, h11⟩ := hscan.mpr
      ⟨h.tasks, h.task_tiles, h.ordinal_tiles, h.tokens_sum, h.ids_nodup, h.keys_nodup⟩
    -- the range of tasks is not empty, so neither is the range of documents
    have hlength := length_of_task_tiles h.task_tiles
    have hlt := h.start_lt_end
    have hne : assignment.tasks ≠ [] := by
      rw [← List.length_pos_iff]
      omega
    exact ⟨h.worker, by simp, ⟨h.start_safe, h.end_safe, h.tokens_safe, by simp⟩,
      ⟨h.start_lt_end, ordinalStart_lt_of_tiles h.ordinal_tiles hne, h.tokens_pos.ne',
        hlength.symm⟩, scan, hrun, h9, h10, h11, h.digest⟩

/-! ### Assignments against the plan -/

/-- The key of the report of a task. -/
def reportKeyText (taskId : String) : String := "reports/" ++ taskId ++ ".json"

def validateAssignedTaskBinding (plan : EmbeddingPlanV2) (expected : RunpodExpectedTaskOutput) :
    Result Unit := do
  let task ← orThrow plan.tasks[(expected.taskOrdinal : ℕ)]? (.invalid "cloud extra assigned task")
  throwIf (expected.taskId ≠ task.taskId ∨ expected.ordinalStart ≠ task.ordinalStart ∨
      expected.ordinalEnd ≠ task.ordinalEnd ∨ expected.tokenCount ≠ task.tokenCount ∨
      expected.resultKey ≠ task.resultPath ∨ expected.receiptKey ≠ task.receiptPath ∨
      expected.reportKey.val ≠ reportKeyText task.taskId)
    (.invalid "cloud assigned task binding")

/-- What the pass over the assignments has seen. -/
structure AssignmentsScan where
  nextTask : ℕ
  nextOrdinal : ℕ
  ids : List String
  tokens : ℕ

section Hashing

variable (prims : Primitives)

def validateAssignment (plan : EmbeddingPlanV2) (scan : AssignmentsScan)
    (assignment : RunpodWorkerAssignment) : Result AssignmentsScan := do
  assignment.validate prims
  throwIf ((assignment.taskStart : ℕ) ≠ scan.nextTask ∨
      (assignment.ordinalStart : ℕ) ≠ scan.nextOrdinal)
    (.invalid "cloud assignment overlap or gap")
  let ids ← orThrow (insertNew scan.ids assignment.workerId)
    (.invalid "cloud assignment overlap or gap")
  forM assignment.tasks (validateAssignedTaskBinding plan)
  let tokens ← orThrow (checkedAdd 64 scan.tokens assignment.tokenCount)
    (.invalid "cloud assignment token count")
  return ⟨assignment.taskEnd, assignment.ordinalEnd, ids, tokens⟩

def validateAssignments (assignments : List RunpodWorkerAssignment) (plan : EmbeddingPlanV2) :
    Result Unit := do
  let scan ← assignments.foldlM (validateAssignment prims plan) ⟨0, 0, [], 0⟩
  throwIf (scan.nextTask ≠ plan.tasks.length ∨ scan.nextOrdinal ≠ plan.documentCount ∨
      scan.tokens ≠ plan.tokenStatistics.totalTokens)
    (.invalid "cloud assignment complete coverage")

end Hashing

/-- An assigned task that stands for a task of the plan. -/
structure ExpectedOf (task : EmbeddingTaskV2) (expected : RunpodExpectedTaskOutput) : Prop where
  taskId : expected.taskId = task.taskId
  ordinalStart : expected.ordinalStart = task.ordinalStart
  ordinalEnd : expected.ordinalEnd = task.ordinalEnd
  tokenCount : expected.tokenCount = task.tokenCount
  resultKey : expected.resultKey = task.resultPath
  receiptKey : expected.receiptKey = task.receiptPath
  reportKey : expected.reportKey.val = reportKeyText task.taskId

theorem validateAssignedTaskBinding_eq_ok {plan : EmbeddingPlanV2}
    {expected : RunpodExpectedTaskOutput} {u : Unit} :
    validateAssignedTaskBinding plan expected = .ok u ↔
      ∃ task, plan.tasks[(expected.taskOrdinal : ℕ)]? = some task ∧ ExpectedOf task expected := by
  simp only [validateAssignedTaskBinding, bind_eq_ok, orThrow_eq_ok, throwIf_eq_ok, not_or,
    not_not]
  refine exists_congr fun task => and_congr_right fun _ => ?_
  constructor
  · rintro ⟨h1, h2, h3, h4, h5, h6, h7⟩
    exact ⟨h1, h2, h3, h4, h5, h6, h7⟩
  · rintro ⟨h1, h2, h3, h4, h5, h6, h7⟩
    exact ⟨h1, h2, h3, h4, h5, h6, h7⟩

/-- The checks of the assignments of a plan. -/
structure AssignmentsAccepted (prims : Primitives) (plan : EmbeddingPlanV2)
    (assignments : List RunpodWorkerAssignment) : Prop where
  accepted : ∀ assignment ∈ assignments, AssignmentAccepted prims assignment
  bound : ∀ assignment ∈ assignments, ∀ expected ∈ assignment.tasks,
    ∃ task, plan.tasks[(expected.taskOrdinal : ℕ)]? = some task ∧ ExpectedOf task expected
  task_tiles : Tiles (fun assignment : RunpodWorkerAssignment => (assignment.taskStart : ℕ))
    (fun assignment => (assignment.taskEnd : ℕ)) 0 assignments plan.tasks.length
  ordinal_tiles : Tiles (fun assignment : RunpodWorkerAssignment => (assignment.ordinalStart : ℕ))
    (fun assignment => (assignment.ordinalEnd : ℕ)) 0 assignments plan.documentCount
  workers_nodup : (assignments.map (·.workerId)).Nodup
  tokens_sum : (assignments.map fun assignment => (assignment.tokenCount : ℕ)).sum =
    plan.tokenStatistics.totalTokens

section Plan

variable {prims : Primitives} {plan : EmbeddingPlanV2}

theorem AssignmentAccepted.ordinalStart_lt {assignment : RunpodWorkerAssignment}
    (h : AssignmentAccepted prims assignment) :
    (assignment.ordinalStart : ℕ) < assignment.ordinalEnd := by
  refine ordinalStart_lt_of_tiles h.ordinal_tiles ?_
  have hlength := length_of_task_tiles h.task_tiles
  have hlt := h.start_lt_end
  rw [← List.length_pos_iff]
  omega

/-- The pass over the assignments from any scan to a token total that its width
admits, by induction on the assignments. -/
theorem validateAssignments_scan (assignments : List RunpodWorkerAssignment)
    (scan : AssignmentsScan) {stopTask stopOrdinal total : ℕ} (htotal : total < 2 ^ 64) :
    (∃ scan', assignments.foldlM (validateAssignment prims plan) scan = .ok scan' ∧
        scan'.nextTask = stopTask ∧ scan'.nextOrdinal = stopOrdinal ∧ scan'.tokens = total) ↔
      (∀ assignment ∈ assignments, AssignmentAccepted prims assignment) ∧
        (∀ assignment ∈ assignments, ∀ expected ∈ assignment.tasks, ∃ task,
          plan.tasks[(expected.taskOrdinal : ℕ)]? = some task ∧ ExpectedOf task expected) ∧
        Tiles (fun assignment : RunpodWorkerAssignment => (assignment.taskStart : ℕ))
          (fun assignment => (assignment.taskEnd : ℕ)) scan.nextTask assignments stopTask ∧
        Tiles (fun assignment : RunpodWorkerAssignment => (assignment.ordinalStart : ℕ))
          (fun assignment => (assignment.ordinalEnd : ℕ)) scan.nextOrdinal assignments
          stopOrdinal ∧
        Fresh (assignments.map (·.workerId)) scan.ids ∧
        scan.tokens + (assignments.map fun assignment => (assignment.tokenCount : ℕ)).sum =
          total := by
  induction assignments generalizing scan with
  | nil => simp
  | cons assignment assignments ih =>
    have hrun : (∃ scan', (assignment :: assignments).foldlM (validateAssignment prims plan) scan =
          .ok scan' ∧ scan'.nextTask = stopTask ∧ scan'.nextOrdinal = stopOrdinal ∧
          scan'.tokens = total) ↔
        ∃ next, validateAssignment prims plan scan assignment = .ok next ∧
          ∃ scan', assignments.foldlM (validateAssignment prims plan) next = .ok scan' ∧
            scan'.nextTask = stopTask ∧ scan'.nextOrdinal = stopOrdinal ∧
            scan'.tokens = total := by
      simp only [List.foldlM_cons, bind_eq_ok]
      constructor
      · rintro ⟨scan', ⟨next, hnext, hscan'⟩, hstops⟩
        exact ⟨next, hnext, scan', hscan', hstops⟩
      · rintro ⟨next, hnext, scan', hscan', hstops⟩
        exact ⟨scan', ⟨next, hnext, hscan'⟩, hstops⟩
    rw [hrun]
    simp only [ih, validateAssignment, bind_eq_ok, exists_unit, throwIf_eq_ok, orThrow_eq_ok,
      insertNew_eq_some, forM_eq_ok, validateAssignedTaskBinding_eq_ok, checkedAdd_eq_some,
      pure_eq_ok, not_or, not_not, RunpodWorkerAssignment.validate_eq_ok, List.forall_mem_cons,
      tiles_cons, List.map_cons, List.sum_cons, fresh_cons, ← Nat.add_assoc]
    constructor
    · rintro ⟨_, ⟨haccepted, ⟨htask, hordinal⟩, _, ⟨hworker, rfl⟩, hbound, _, ⟨-, rfl⟩, rfl⟩,
        haccepteds, hbounds, htasks, hordinals, hworkers, hsum⟩
      exact ⟨⟨haccepted, haccepteds⟩, ⟨hbound, hbounds⟩, ⟨htask, haccepted.start_lt_end, htasks⟩,
        ⟨hordinal, haccepted.ordinalStart_lt, hordinals⟩, ⟨hworker, hworkers⟩, hsum⟩
    · rintro ⟨⟨haccepted, haccepteds⟩, ⟨hbound, hbounds⟩, ⟨htask, -, htasks⟩,
        ⟨hordinal, -, hordinals⟩, ⟨hworker, hworkers⟩, hsum⟩
      exact ⟨_, ⟨haccepted, ⟨htask, hordinal⟩, _, ⟨hworker, rfl⟩, hbound, _, ⟨by omega, rfl⟩, rfl⟩,
        haccepteds, hbounds, htasks, hordinals, hworkers, hsum⟩

theorem validateAssignments_eq_ok {assignments : List RunpodWorkerAssignment} {u : Unit} :
    validateAssignments prims assignments plan = .ok u ↔
      AssignmentsAccepted prims plan assignments := by
  have hscan := @validateAssignments_scan prims plan assignments ⟨0, 0, [], 0⟩ plan.tasks.length
    plan.documentCount _ plan.tokenStatistics.totalTokens.isLt
  simp only [Nat.zero_add, fresh_empty] at hscan
  simp only [validateAssignments, bind_eq_ok, throwIf_eq_ok, not_or, not_not]
  rw [hscan]
  constructor
  · rintro ⟨h1, h2, h3, h4, h5, h6⟩
    exact ⟨h1, h2, h3, h4, h5, h6⟩
  · rintro ⟨h1, h2, h3, h4, h5, h6⟩
    exact ⟨h1, h2, h3, h4, h5, h6⟩

/-- The tasks of one assignment are those of its range, by induction on them. -/
theorem expectedOf_segment {tasks : List RunpodExpectedTaskOutput} {lo hi : ℕ}
    (htiles : Tiles (fun task : RunpodExpectedTaskOutput => (task.taskOrdinal : ℕ))
      (fun task => (task.taskOrdinal : ℕ) + 1) lo tasks hi)
    (hbound : ∀ expected ∈ tasks, ∃ task,
      plan.tasks[(expected.taskOrdinal : ℕ)]? = some task ∧ ExpectedOf task expected) :
    List.Forall₂ ExpectedOf (segment plan.tasks lo hi) tasks := by
  induction tasks generalizing lo with
  | nil =>
    obtain rfl : lo = hi := htiles
    rw [segment_self]
    exact .nil
  | cons expected tasks ih =>
    obtain ⟨rfl, -, hrest⟩ := htiles
    rw [List.forall_mem_cons] at hbound
    obtain ⟨⟨task, htask, hexpected⟩, hbounds⟩ := hbound
    rw [segment_cons htask hrest.le]
    exact .cons hexpected (ih hrest hbounds)

/-- **The assignments partition the plan.** Strung together, the assigned tasks
are the tasks of the plan, in order. -/
theorem AssignmentsAccepted.tasks_eq {assignments : List RunpodWorkerAssignment}
    (h : AssignmentsAccepted prims plan assignments) :
    List.Forall₂ ExpectedOf plan.tasks (assignments.flatMap (·.tasks)) := by
  rw [← segment_zero_length plan.tasks]
  refine h.task_tiles.forall₂_flatMap plan.tasks fun assignment hassignment => ?_
  exact expectedOf_segment (h.accepted assignment hassignment).task_tiles
    (h.bound assignment hassignment)

end Plan

end LivefireRag.Cloud
