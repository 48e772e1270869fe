import LivefireRag.Lib.Matching
import LivefireRag.Cloud.BundleBuilder

/-!
# Attempts and run reports

Workers run and retry on their own. Each attempt leaves a marker
(`RunpodWorkerAttemptMarker`); the host selects completed markers and seals a
report over them (`RunpodRunReport`). The report is checked against the bundle
and the markers it selects, in a pass over the assignments that looks for the
attempt of each worker.

`RunpodRunReport.validateAgainst_eq_ok` says what the check accepts. From it
`validateAgainst_covers` draws the coverage: the attempts are, one for one, those
of the assignments, all completed under the execution identity of the bundle, and
together they have exactly one output for every task of the plan. The query
vectors of the report are only tied to an attempt through the distinguished
worker of the bundle, and the check of the bundle does not ask that any
assignment be his: `validateAgainst_covers_iff` says that this is all that is
missing, `unassignedQueryWorker_accepted` that it can be missing.
-/

namespace LivefireRag.Cloud

open Pipeline Fallible Machine Tiling Seen Matching

/-! ### Attempts -/

structure RunpodMachineIdentity where
  podId : String
  machineId : String
  deriving DecidableEq

instance : ToJson RunpodMachineIdentity := ⟨fun machine => .mkObject
  [("pod_id", toJson machine.podId), ("machine_id", toJson machine.machineId)]⟩

def RunpodMachineIdentity.validate (machine : RunpodMachineIdentity) : Result Unit := do
  requireIdentifier machine.podId
  requireIdentifier machine.machineId

inductive WorkerAttemptOutcome where
  | completed
  | failed
  deriving DecidableEq

instance : ToJson WorkerAttemptOutcome := ⟨fun outcome => match outcome with
  | .completed => .string "completed"
  | .failed => .string "failed"⟩

structure RunpodTaskOutput where
  taskId : String
  result : CloudObjectRef
  receipt : CloudObjectRef
  report : CloudObjectRef
  deriving DecidableEq

instance : ToJson RunpodTaskOutput := ⟨fun output => .mkObject
  [("task_id", toJson output.taskId), ("result", toJson output.result),
    ("receipt", toJson output.receipt), ("report", toJson output.report)]⟩

/-- The query-vector objects a worker has published. -/
structure RunpodQueryVectorSetOutput where
  componentSha256 : Digest
  manifest : CloudObjectRef
  queryPlan : CloudObjectRef
  vectors : CloudObjectRef
  deriving DecidableEq

instance : ToJson RunpodQueryVectorSetOutput := ⟨fun output => .mkObject
  [("component_sha256", toJson output.componentSha256), ("manifest", toJson output.manifest),
    ("query_plan", toJson output.queryPlan), ("vectors", toJson output.vectors)]⟩

def RunpodQueryVectorSetOutput.validateAgainst (output : RunpodQueryVectorSetOutput)
    (bundle : RunpodEmbeddingBundle) : Result Unit := do
  output.manifest.validate
  output.queryPlan.validate
  output.vectors.validate
  let expected := bundle.queryVectorOutput
  throwIf (output.manifest.key ≠ expected.manifestKey ∨
      output.queryPlan.key ≠ expected.queryPlanKey ∨ output.vectors.key ≠ expected.vectorsKey ∨
      output.queryPlan.bytes ≠ bundle.artifacts.queryPlan.bytes ∨
      output.queryPlan.sha256 ≠ bundle.artifacts.queryPlan.sha256)
    (.invalid "cloud query vector output binding")

/-- The output expected of one task, among the outputs by task. -/
def validateTaskOutput (values : SortedMap String RunpodTaskOutput)
    (expected : RunpodExpectedTaskOutput) : Result Unit := do
  let output ← orThrow (values.get? expected.taskId) (.invalid "cloud missing task output")
  output.result.validate
  output.receipt.validate
  output.report.validate
  throwIf (output.result.key ≠ expected.resultKey ∨ output.receipt.key ≠ expected.receiptKey)
    (.invalid "cloud task output key")
  throwIf (output.report.key ≠ expected.reportKey) (.invalid "cloud task report key")

def validateTaskOutputs (outputs : List RunpodTaskOutput) (assignment : RunpodWorkerAssignment) :
    Result Unit := do
  throwIf (outputs.length ≠ assignment.tasks.length) (.invalid "cloud task output coverage")
  let values := SortedMap.ofList (outputs.map fun output => (output.taskId, output))
  throwIf (values.size ≠ outputs.length) (.invalid "cloud duplicate task output")
  forM assignment.tasks (validateTaskOutput values)

/-- The marker of one bounded attempt of a worker. -/
structure RunpodWorkerAttemptMarker where
  schemaVersion : String
  componentSha256 : Digest
  bundleSha256 : Digest
  assignmentSha256 : Digest
  workerId : String
  attemptId : String
  attemptNumber : U32
  outcome : WorkerAttemptOutcome
  machine : RunpodMachineIdentity
  execution : RunpodExecutionIdentity
  startedAtMs : U64
  completedAtMs : U64
  requests : U64
  retries : U64
  outputs : List RunpodTaskOutput
  queryVectorSet : Option RunpodQueryVectorSetOutput
  failureCode : Option String
  deriving DecidableEq

/-- The fields of a marker other than its own digest; the two optional ones are
omitted when they are empty. -/
def RunpodWorkerAttemptMarker.body (attempt : RunpodWorkerAttemptMarker) :
    List (String × Json) :=
  [("schema_version", toJson attempt.schemaVersion),
    ("bundle_sha256", toJson attempt.bundleSha256),
    ("assignment_sha256", toJson attempt.assignmentSha256),
    ("worker_id", toJson attempt.workerId), ("attempt_id", toJson attempt.attemptId),
    ("attempt_number", toJson attempt.attemptNumber), ("outcome", toJson attempt.outcome),
    ("machine", toJson attempt.machine), ("execution", toJson attempt.execution),
    ("started_at_ms", toJson attempt.startedAtMs),
    ("completed_at_ms", toJson attempt.completedAtMs), ("requests", toJson attempt.requests),
    ("retries", toJson attempt.retries), ("outputs", toJson attempt.outputs)] ++
  (attempt.queryVectorSet.toList.map fun output => ("query_vector_set", toJson output)) ++
  (attempt.failureCode.toList.map fun code => ("failure_code", toJson code))

instance : ToJson RunpodWorkerAttemptMarker :=
  ⟨fun attempt => sealedObject attempt.componentSha256 attempt.body⟩

@[simp] theorem RunpodWorkerAttemptMarker.body_setDigest (attempt : RunpodWorkerAttemptMarker)
    (digest : Digest) : { attempt with componentSha256 := digest }.body = attempt.body := rfl

/-- The attempt with its own digest filled in. -/
def RunpodWorkerAttemptMarker.withDigest (prims : Primitives) (attempt : RunpodWorkerAttemptMarker) :
    RunpodWorkerAttemptMarker :=
  { attempt with componentSha256 := canonicalDigest prims (.mkObject attempt.body) }

theorem RunpodWorkerAttemptMarker.digest_withDigest (prims : Primitives)
    (attempt : RunpodWorkerAttemptMarker) : (attempt.withDigest prims).componentSha256 =
      canonicalDigest prims (.mkObject (attempt.withDigest prims).body) := rfl

def RunpodWorkerAttemptMarker.validateCompleted (attempt : RunpodWorkerAttemptMarker)
    (bundle : RunpodEmbeddingBundle) (assignment : RunpodWorkerAssignment) : Result Unit := do
  throwIf ((attempt.requests : ℕ) = 0 ∨ attempt.failureCode.isSome)
    (.invalid "cloud completed attempt state")
  validateTaskOutputs attempt.outputs assignment
  if attempt.workerId = bundle.queryVectorOutput.workerId then
    let output ← orThrow attempt.queryVectorSet (.invalid "cloud query vector output missing")
    output.validateAgainst bundle
  else throwIf attempt.queryVectorSet.isSome (.invalid "cloud query vector output worker")

def RunpodWorkerAttemptMarker.validateFailed (attempt : RunpodWorkerAttemptMarker) :
    Result Unit := do
  throwIf (attempt.outputs ≠ [] ∨ attempt.queryVectorSet.isSome)
    (.invalid "cloud failed attempt state")
  let code ← orThrow attempt.failureCode (.invalid "cloud failed attempt state")
  requireIdentifier code

section Hashing

variable (prims : Primitives)

def RunpodWorkerAttemptMarker.validateAgainst (attempt : RunpodWorkerAttemptMarker)
    (bundle : RunpodEmbeddingBundle) : Result Unit := do
  throwIf (attempt.schemaVersion ≠ runpodWorkerAttemptSchema ∨
      attempt.bundleSha256 ≠ bundle.componentSha256)
    (.invalid "cloud attempt bundle binding")
  requireIdentifier attempt.workerId
  requireIdentifier attempt.attemptId
  requireSafeU32 attempt.attemptNumber
  forM [attempt.startedAtMs, attempt.completedAtMs, attempt.requests, attempt.retries]
    requireSafeU64
  throwIf ((attempt.attemptNumber : ℕ) = 0 ∨ attempt.completedAtMs < attempt.startedAtMs ∨
      attempt.requests < attempt.retries)
    (.invalid "cloud attempt accounting")
  attempt.machine.validate
  attempt.execution.validate
  throwIf (attempt.execution ≠ bundle.execution) (.invalid "cloud attempt execution identity")
  let assignment ← orThrow
    (bundle.assignments.find? fun assignment => assignment.workerId = attempt.workerId)
    (.invalid "cloud attempt worker")
  throwIf (attempt.assignmentSha256 ≠ assignment.componentSha256)
    (.invalid "cloud attempt assignment binding")
  match attempt.outcome with
  | .completed => attempt.validateCompleted bundle assignment
  | .failed => attempt.validateFailed
  let digest ← componentDigest prims (toJson attempt)
  throwIf (attempt.componentSha256 ≠ digest) (.invalid "cloud attempt component digest")

/-- The object a completed marker is stored as, under one key for each worker. -/
def RunpodWorkerAttemptMarker.canonicalObject (attempt : RunpodWorkerAttemptMarker) :
    Result CloudObjectRef := do
  let content := prims.canonicalJsonBytes (toJson attempt)
  let key ← SafeRelativePath.new ("attempts/" ++ attempt.workerId ++ "/completed.json")
  let bytes : U64 ← orThrow (toWidth 64 content.length) (.invalid "cloud marker bytes")
  return ⟨key, bytes, digestBytes prims content⟩

end Hashing

/-! ### Reports -/

structure RunpodSelectedAttempt where
  workerId : String
  attemptId : String
  markerComponentSha256 : Digest
  marker : CloudObjectRef
  deriving DecidableEq

instance : ToJson RunpodSelectedAttempt := ⟨fun selected => .mkObject
  [("worker_id", toJson selected.workerId), ("attempt_id", toJson selected.attemptId),
    ("marker_component_sha256", toJson selected.markerComponentSha256),
    ("marker", toJson selected.marker)]⟩

structure RunpodRunReport where
  schemaVersion : String
  componentSha256 : Digest
  bundleSha256 : Digest
  execution : RunpodExecutionIdentity
  workerCount : U32
  taskCount : U32
  documentCount : U64
  totalTokens : U64
  vectorObjects : U32
  receiptObjects : U32
  reportObjects : U32
  queryVectorSet : RunpodQueryVectorSetOutput
  selectedAttempts : List RunpodSelectedAttempt
  deriving DecidableEq

/-- The fields of a report other than its own digest. -/
def RunpodRunReport.body (report : RunpodRunReport) : List (String × Json) :=
  [("schema_version", toJson report.schemaVersion),
    ("bundle_sha256", toJson report.bundleSha256), ("execution", toJson report.execution),
    ("worker_count", toJson report.workerCount), ("task_count", toJson report.taskCount),
    ("document_count", toJson report.documentCount), ("total_tokens", toJson report.totalTokens),
    ("vector_objects", toJson report.vectorObjects),
    ("receipt_objects", toJson report.receiptObjects),
    ("report_objects", toJson report.reportObjects),
    ("query_vector_set", toJson report.queryVectorSet),
    ("selected_attempts", toJson report.selectedAttempts)]

instance : ToJson RunpodRunReport :=
  ⟨fun report => sealedObject report.componentSha256 report.body⟩

@[simp] theorem RunpodRunReport.body_setDigest (report : RunpodRunReport) (digest : Digest) :
    { report with componentSha256 := digest }.body = report.body := rfl

/-- The report with its own digest filled in. -/
def RunpodRunReport.withDigest (prims : Primitives) (report : RunpodRunReport) :
    RunpodRunReport :=
  { report with componentSha256 := canonicalDigest prims (.mkObject report.body) }

theorem RunpodRunReport.digest_withDigest (prims : Primitives)
    (report : RunpodRunReport) : (report.withDigest prims).componentSha256 =
      canonicalDigest prims (.mkObject (report.withDigest prims).body) := rfl

/-- What the pass over the assignments has seen: workers and tasks. -/
structure ReportScan where
  workers : List String
  tasks : List String

section Hashing

variable (prims : Primitives)

/-- One assignment: the first attempt of its worker. -/
def RunpodRunReport.validateAssignment (report : RunpodRunReport)
    (bundle : RunpodEmbeddingBundle) (attempts : List RunpodWorkerAttemptMarker)
    (refs : SortedMap String RunpodSelectedAttempt) (scan : ReportScan)
    (assignment : RunpodWorkerAssignment) : Result ReportScan := do
  let attempt ← orThrow (attempts.find? fun attempt => attempt.workerId = assignment.workerId)
    (.invalid "cloud report missing worker")
  attempt.validateAgainst prims bundle
  throwIf (attempt.outcome ≠ .completed) (.invalid "cloud report worker coverage")
  let workers ← orThrow (insertNew scan.workers attempt.workerId)
    (.invalid "cloud report worker coverage")
  throwIf (attempt.workerId = bundle.queryVectorOutput.workerId ∧
      attempt.queryVectorSet ≠ some report.queryVectorSet)
    (.invalid "cloud report query vector selection")
  let selected ← orThrow (refs.get? attempt.componentSha256.val)
    (.invalid "cloud report unselected attempt")
  let canonical ← attempt.canonicalObject prims
  throwIf (selected.workerId ≠ attempt.workerId ∨ selected.attemptId ≠ attempt.attemptId ∨
      selected.marker ≠ canonical)
    (.invalid "cloud report attempt object binding")
  let tasks ← orThrow (insertAll scan.tasks (attempt.outputs.map (·.taskId)))
    (.invalid "cloud report duplicate task")
  return ⟨workers, tasks⟩

def RunpodRunReport.validateAgainst (report : RunpodRunReport) (bundle : RunpodEmbeddingBundle)
    (attempts : List RunpodWorkerAttemptMarker) : Result Unit := do
  throwIf (report.schemaVersion ≠ runpodRunReportSchema ∨
      report.bundleSha256 ≠ bundle.componentSha256 ∨ report.execution ≠ bundle.execution ∨
      (report.workerCount : ℕ) ≠ bundle.assignments.length ∨
      report.taskCount ≠ bundle.taskCount ∨ report.documentCount ≠ bundle.documentCount ∨
      report.totalTokens ≠ bundle.totalTokens ∨ report.vectorObjects ≠ bundle.taskCount ∨
      report.receiptObjects ≠ bundle.taskCount ∨ report.reportObjects ≠ bundle.taskCount ∨
      report.queryVectorSet.validateAgainst bundle ≠ .ok () ∨
      report.selectedAttempts.length ≠ bundle.assignments.length ∨
      attempts.length ≠ report.selectedAttempts.length)
    (.invalid "cloud report bundle binding")
  forM [report.documentCount, report.totalTokens] requireSafeU64
  let refs := SortedMap.ofList
    (report.selectedAttempts.map fun entry => (entry.markerComponentSha256.val, entry))
  let loaded := SortedMap.ofList
    (attempts.map fun attempt => (attempt.componentSha256.val, attempt))
  throwIf (refs.size ≠ report.selectedAttempts.length ∨ loaded.size ≠ attempts.length)
    (.invalid "cloud report duplicate attempt")
  let scan ← bundle.assignments.foldlM (report.validateAssignment prims bundle attempts refs)
    ⟨[], []⟩
  let expected := bundle.assignments.flatMap fun assignment =>
    assignment.tasks.map (·.taskId)
  -- the two comparisons are of sets
  throwIf (¬ (scan.tasks ⊆ expected ∧ expected ⊆ scan.tasks) ∨ loaded.keys ≠ refs.keys)
    (.invalid "cloud report task or attempt coverage")
  let digest ← componentDigest prims (toJson report)
  throwIf (report.componentSha256 ≠ digest) (.invalid "cloud report component digest")

def selectAttempt (attempt : RunpodWorkerAttemptMarker) : Result RunpodSelectedAttempt := do
  let marker ← attempt.canonicalObject prims
  return ⟨attempt.workerId, attempt.attemptId, attempt.componentSha256, marker⟩

def buildRunpodRunReport (bundle : RunpodEmbeddingBundle)
    (attempts : List RunpodWorkerAttemptMarker) : Result RunpodRunReport := do
  let selectedAttempts ← attempts.mapM (selectAttempt prims)
  let queryVectorSet ← orThrow
    ((attempts.find? fun attempt => attempt.workerId = bundle.queryVectorOutput.workerId).bind
      (·.queryVectorSet))
    (.invalid "cloud query vector output missing")
  let workerCount : U32 ← orThrow (toWidth 32 bundle.assignments.length)
    (.invalid "cloud worker count")
  let report : RunpodRunReport := {
    schemaVersion := runpodRunReportSchema
    componentSha256 := unsealed prims
    bundleSha256 := bundle.componentSha256
    execution := bundle.execution
    workerCount
    taskCount := bundle.taskCount
    documentCount := bundle.documentCount
    totalTokens := bundle.totalTokens
    vectorObjects := bundle.taskCount
    receiptObjects := bundle.taskCount
    reportObjects := bundle.taskCount
    queryVectorSet, selectedAttempts }
  let digest ← componentDigest prims (toJson report)
  let sealed := { report with componentSha256 := digest }
  sealed.validateAgainst prims bundle attempts
  return sealed

end Hashing

/-! ### What the checks accept -/

/-- An output that meets what is expected of a task. -/
structure OutputAccepted (expected : RunpodExpectedTaskOutput) (output : RunpodTaskOutput) :
    Prop where
  taskId : output.taskId = expected.taskId
  result_ok : output.result.validate = .ok ()
  receipt_ok : output.receipt.validate = .ok ()
  report_ok : output.report.validate = .ok ()
  resultKey : output.result.key = expected.resultKey
  receiptKey : output.receipt.key = expected.receiptKey
  reportKey : output.report.key = expected.reportKey

theorem validateTaskOutput_eq_ok {outputs : List RunpodTaskOutput}
    (h : (outputs.map (·.taskId)).Nodup) {expected : RunpodExpectedTaskOutput} {u : Unit} :
    validateTaskOutput (SortedMap.ofList (outputs.map fun output => (output.taskId, output)))
        expected = .ok u ↔ ∃ output ∈ outputs, OutputAccepted expected output := by
  simp only [validateTaskOutput, bind_eq_ok, exists_unit, orThrow_eq_ok, SortedMap.get?_index h,
    throwIf_eq_ok, not_or, not_not]
  constructor
  · rintro ⟨output, ⟨hmem, h1⟩, h2, h3, h4, ⟨h5, h6⟩, h7⟩
    exact ⟨output, hmem, h1, h2, h3, h4, h5, h6, h7⟩
  · rintro ⟨output, hmem, h1, h2, h3, h4, h5, h6, h7⟩
    exact ⟨output, ⟨hmem, h1⟩, h2, h3, h4, ⟨h5, h6⟩, h7⟩

/-- The outputs of an assignment are accepted when there are as many as tasks, of
distinct tasks, and every task has one. -/
theorem validateTaskOutputs_eq_ok {outputs : List RunpodTaskOutput}
    {assignment : RunpodWorkerAssignment} {u : Unit} :
    validateTaskOutputs outputs assignment = .ok u ↔
      outputs.length = assignment.tasks.length ∧ (outputs.map (·.taskId)).Nodup ∧
        ∀ expected ∈ assignment.tasks, ∃ output ∈ outputs, OutputAccepted expected output := by
  simp only [validateTaskOutputs, bind_eq_ok, exists_unit, throwIf_eq_ok, not_not, forM_eq_ok,
    SortedMap.size_index_eq_length_iff]
  refine and_congr_right fun _ => and_congr_right fun hnodup => ?_
  exact forall₂_congr fun expected _ => validateTaskOutput_eq_ok hnodup

/-- The checks of a completed attempt at an assignment. -/
structure CompletedAttempt (prims : Primitives) (bundle : RunpodEmbeddingBundle)
    (assignment : RunpodWorkerAssignment) (attempt : RunpodWorkerAttemptMarker) : Prop where
  schema : attempt.schemaVersion = runpodWorkerAttemptSchema
  bundle_eq : attempt.bundleSha256 = bundle.componentSha256
  worker : IsIdentifier attempt.workerId
  attempt_id : IsIdentifier attempt.attemptId
  times_safe : ∀ value ∈ [attempt.startedAtMs, attempt.completedAtMs, attempt.requests,
    attempt.retries], (value : ℕ) ≤ maxSafeJsonInteger
  number_pos : 0 < (attempt.attemptNumber : ℕ)
  started_le : attempt.startedAtMs ≤ attempt.completedAtMs
  retries_le : attempt.retries ≤ attempt.requests
  machine_ok : attempt.machine.validate = .ok ()
  execution_ok : attempt.execution.validate = .ok ()
  execution_eq : attempt.execution = bundle.execution
  assignment_eq : attempt.assignmentSha256 = assignment.componentSha256
  outcome : attempt.outcome = .completed
  requests_pos : 0 < (attempt.requests : ℕ)
  no_failure : attempt.failureCode = none
  outputs_ok : validateTaskOutputs attempt.outputs assignment = .ok ()
  query_worker : attempt.workerId = bundle.queryVectorOutput.workerId →
    ∃ output, attempt.queryVectorSet = some output ∧ output.validateAgainst bundle = .ok ()
  no_query : attempt.workerId ≠ bundle.queryVectorOutput.workerId → attempt.queryVectorSet = none
  digest : attempt.componentSha256 = canonicalDigest prims (.mkObject attempt.body)

theorem RunpodWorkerAttemptMarker.componentDigest_eq (prims : Primitives)
    (attempt : RunpodWorkerAttemptMarker) : componentDigest prims (toJson attempt) =
      .ok (canonicalDigest prims (.mkObject attempt.body)) :=
  componentDigest_sealedObject prims (by
    cases h1 : attempt.queryVectorSet <;> cases h2 : attempt.failureCode <;>
      simp [RunpodWorkerAttemptMarker.body, h1, h2])

theorem RunpodWorkerAttemptMarker.validateAgainst_eq_ok {prims : Primitives}
    {bundle : RunpodEmbeddingBundle} {attempt : RunpodWorkerAttemptMarker}
    (hcompleted : attempt.outcome = .completed) {u : Unit} :
    attempt.validateAgainst prims bundle = .ok u ↔ ∃ assignment,
      bundle.assignments.find? (fun assignment => assignment.workerId = attempt.workerId) =
          some assignment ∧
        CompletedAttempt prims bundle assignment attempt := by
  simp only [validateAgainst, hcompleted, validateCompleted, bind_eq_ok, exists_unit,
    throwIf_eq_ok, orThrow_eq_ok, requireIdentifier_eq_ok, requireSafeU32_eq_ok, forM_eq_ok,
    requireSafeU64_eq_ok, componentDigest_eq, Except.ok.injEq, exists_eq_left', not_or, not_not,
    not_lt, true_and, Bool.not_eq_true, Option.isSome_eq_false_iff, Option.isNone_iff_eq_none]
  constructor
  · rintro ⟨⟨h1, h2⟩, h3, h4, h5, ⟨h6, h7, h8⟩, h9, h10, h11, assignment, hfind, h12,
      ⟨⟨h13, h14⟩, h15, h16⟩, h17⟩
    refine ⟨assignment, hfind, h1, h2, h3, h4, h5, Nat.pos_of_ne_zero h6, h7, h8, h9, h10, h11,
      h12, hcompleted, Nat.pos_of_ne_zero h13, h14, h15, fun hworker => ?_, fun hworker => ?_, h17⟩
    · rw [if_pos hworker] at h16
      simpa only [bind_eq_ok, orThrow_eq_ok] using h16
    · rw [if_neg hworker] at h16
      simpa using h16
  · rintro ⟨assignment, hfind, h⟩
    refine ⟨⟨h.schema, h.bundle_eq⟩, h.worker, h.attempt_id, h.times_safe,
      ⟨h.number_pos.ne', h.started_le, h.retries_le⟩, h.machine_ok, h.execution_ok,
      h.execution_eq, assignment, hfind, h.assignment_eq,
      ⟨⟨h.requests_pos.ne', h.no_failure⟩, h.outputs_ok, ?_⟩, h.digest⟩
    split_ifs with hworker
    · simpa only [bind_eq_ok, orThrow_eq_ok] using h.query_worker hworker
    · simpa using h.no_query hworker

/-- The attempt selected for an assignment: the first one of its worker, accepted,
completed, and the one the report refers to under its digest. -/
structure AttemptSelected (prims : Primitives) (report : RunpodRunReport)
    (bundle : RunpodEmbeddingBundle) (attempts : List RunpodWorkerAttemptMarker)
    (refs : SortedMap String RunpodSelectedAttempt) (assignment : RunpodWorkerAssignment)
    (attempt : RunpodWorkerAttemptMarker) : Prop where
  found : attempts.find? (fun attempt => attempt.workerId = assignment.workerId) = some attempt
  accepted : attempt.validateAgainst prims bundle = .ok ()
  outcome : attempt.outcome = .completed
  query : attempt.workerId = bundle.queryVectorOutput.workerId →
    attempt.queryVectorSet = some report.queryVectorSet
  referred : ∃ selected canonical, refs.get? attempt.componentSha256.val = some selected ∧
    attempt.canonicalObject prims = .ok canonical ∧ selected.workerId = attempt.workerId ∧
    selected.attemptId = attempt.attemptId ∧ selected.marker = canonical

section Report

variable {prims : Primitives} {report : RunpodRunReport} {bundle : RunpodEmbeddingBundle}
  {attempts : List RunpodWorkerAttemptMarker} {refs : SortedMap String RunpodSelectedAttempt}

theorem validateAssignment_eq_ok {scan scan' : ReportScan} {assignment : RunpodWorkerAssignment} :
    report.validateAssignment prims bundle attempts refs scan assignment = .ok scan' ↔
      ∃ attempt, AttemptSelected prims report bundle attempts refs assignment attempt ∧
        attempt.workerId ∉ scan.workers ∧
        Fresh (attempt.outputs.map (·.taskId)) scan.tasks ∧
        scan' = ⟨attempt.workerId :: scan.workers,
          (attempt.outputs.map (·.taskId)).reverse ++ scan.tasks⟩ := by
  simp only [RunpodRunReport.validateAssignment, bind_eq_ok, exists_unit, orThrow_eq_ok,
    throwIf_eq_ok, insertNew_eq_some, insertAll_eq_some, pure_eq_ok, not_or, not_not, not_and]
  refine exists_congr fun attempt => ?_
  constructor
  · rintro ⟨h1, h2, h3, _, ⟨h4, rfl⟩, h5, selected, h6, canonical, h7, ⟨h8, h9, h10⟩, _,
      ⟨h11, rfl⟩, rfl⟩
    exact ⟨⟨h1, h2, h3, h5, selected, canonical, h6, h7, h8, h9, h10⟩, h4, h11, rfl⟩
  · rintro ⟨⟨h1, h2, h3, h5, selected, canonical, h6, h7, h8, h9, h10⟩, h4, h11, rfl⟩
    exact ⟨h1, h2, h3, _, ⟨h4, rfl⟩, h5, selected, h6, canonical, h7, ⟨h8, h9, h10⟩, _,
      ⟨h11, rfl⟩, rfl⟩

/-- The pass over the assignments from any scan, by induction on them: it selects
an attempt for each, of new workers and with outputs for new tasks. -/
theorem validateAssignment_scan (assignments : List RunpodWorkerAssignment)
    (scan scan' : ReportScan) :
    assignments.foldlM (report.validateAssignment prims bundle attempts refs) scan = .ok scan' ↔
      ∃ selected, List.Forall₂ (AttemptSelected prims report bundle attempts refs) assignments
          selected ∧
        Fresh (selected.map (·.workerId)) scan.workers ∧
        Fresh (selected.flatMap fun attempt => attempt.outputs.map (·.taskId)) scan.tasks ∧
        scan' = ⟨(selected.map (·.workerId)).reverse ++ scan.workers,
          (selected.flatMap fun attempt => attempt.outputs.map (·.taskId)).reverse ++
            scan.tasks⟩ := by
  induction assignments generalizing scan with
  | nil =>
    simp only [List.foldlM_nil, pure_eq_ok, List.forall₂_nil_left_iff, exists_eq_left]
    simp [eq_comm]
  | cons assignment assignments ih =>
    simp only [List.foldlM_cons, bind_eq_ok, ih, validateAssignment_eq_ok,
      List.forall₂_cons_left_iff]
    constructor
    · rintro ⟨_, ⟨attempt, hattempt, hworker, htasks, rfl⟩, selected, hselected, hworkers,
        htaskss, rfl⟩
      refine ⟨attempt :: selected, ⟨attempt, selected, hattempt, hselected, rfl⟩, ?_, ?_, ?_⟩
      · exact fresh_cons.mpr ⟨hworker, hworkers⟩
      · exact fresh_append.mpr ⟨htasks, htaskss⟩
      · simp
    · rintro ⟨_, ⟨attempt, selected, hattempt, hselected, rfl⟩, hworkers, htasks, rfl⟩
      rw [List.map_cons, fresh_cons] at hworkers
      rw [List.flatMap_cons, fresh_append] at htasks
      refine ⟨_, ⟨attempt, hattempt, hworkers.1, htasks.1, rfl⟩, selected, hselected, hworkers.2,
        htasks.2, ?_⟩
      simp

/-- The checks of a report. -/
structure ReportAccepted (prims : Primitives) (report : RunpodRunReport)
    (bundle : RunpodEmbeddingBundle) (attempts : List RunpodWorkerAttemptMarker) : Prop where
  schema : report.schemaVersion = runpodRunReportSchema
  bundle_eq : report.bundleSha256 = bundle.componentSha256
  execution : report.execution = bundle.execution
  workerCount : (report.workerCount : ℕ) = bundle.assignments.length
  taskCount : report.taskCount = bundle.taskCount
  documentCount : report.documentCount = bundle.documentCount
  totalTokens : report.totalTokens = bundle.totalTokens
  vectorObjects : report.vectorObjects = bundle.taskCount
  receiptObjects : report.receiptObjects = bundle.taskCount
  reportObjects : report.reportObjects = bundle.taskCount
  query_ok : report.queryVectorSet.validateAgainst bundle = .ok ()
  selected_length : report.selectedAttempts.length = bundle.assignments.length
  attempts_length : attempts.length = report.selectedAttempts.length
  counts_safe : ∀ value ∈ [report.documentCount, report.totalTokens],
    (value : ℕ) ≤ maxSafeJsonInteger
  refs_nodup : (report.selectedAttempts.map (·.markerComponentSha256.val)).Nodup
  attempts_nodup : (attempts.map (·.componentSha256.val)).Nodup
  selected : ∃ selected,
    List.Forall₂ (AttemptSelected prims report bundle attempts (SortedMap.ofList
      (report.selectedAttempts.map fun entry => (entry.markerComponentSha256.val, entry))))
      bundle.assignments selected ∧
    (selected.map (·.workerId)).Nodup ∧
    (selected.flatMap fun attempt => attempt.outputs.map (·.taskId)).Nodup ∧
    ∀ id, id ∈ (selected.flatMap fun attempt => attempt.outputs.map (·.taskId)) ↔
      id ∈ bundle.assignments.flatMap fun assignment => assignment.tasks.map (·.taskId)
  keys_eq : (SortedMap.ofList
      (attempts.map fun attempt => (attempt.componentSha256.val, attempt))).keys =
    (SortedMap.ofList (report.selectedAttempts.map fun entry =>
      (entry.markerComponentSha256.val, entry))).keys
  digest : report.componentSha256 = canonicalDigest prims (.mkObject report.body)

theorem RunpodRunReport.componentDigest_eq (prims : Primitives) (report : RunpodRunReport) :
    componentDigest prims (toJson report) = .ok (canonicalDigest prims (.mkObject report.body)) :=
  componentDigest_sealedObject prims (by simp [RunpodRunReport.body])

/-- **Acceptance of a report**, check by check. -/
theorem RunpodRunReport.validateAgainst_eq_ok {u : Unit} :
    report.validateAgainst prims bundle attempts = .ok u ↔
      ReportAccepted prims report bundle attempts := by
  simp only [RunpodRunReport.validateAgainst, bind_eq_ok, exists_unit, throwIf_eq_ok, not_or,
    not_not, forM_eq_ok, requireSafeU64_eq_ok, ne_eq,
    @SortedMap.size_index_eq_length_iff String RunpodSelectedAttempt _
      (fun entry => entry.markerComponentSha256.val),
    @SortedMap.size_index_eq_length_iff String RunpodWorkerAttemptMarker _
      (fun attempt => attempt.componentSha256.val),
    componentDigest_eq, Except.ok.injEq, exists_eq_left', validateAssignment_scan, fresh_empty,
    List.append_nil]
  constructor
  · rintro ⟨⟨h1, h2, h3, h4, h5, h6, h7, h8, h9, h10, h11, h12, h13⟩, h14, ⟨h15, h16⟩, _,
      ⟨selected, hselected, hworkers, htasks, rfl⟩, ⟨⟨hsub, hsup⟩, h17⟩, h18⟩
    refine ⟨h1, h2, h3, h4, h5, h6, h7, h8, h9, h10, h11, h12, h13, h14, h15, h16,
      ⟨selected, hselected, hworkers, htasks, fun id => ⟨fun hid => ?_, fun hid => ?_⟩⟩, h17, h18⟩
    · exact hsub (List.mem_reverse.mpr hid)
    · exact List.mem_reverse.mp (hsup hid)
  · rintro ⟨h1, h2, h3, h4, h5, h6, h7, h8, h9, h10, h11, h12, h13, h14, h15, h16,
      ⟨selected, hselected, hworkers, htasks, hids⟩, h17, h18⟩
    refine ⟨⟨h1, h2, h3, h4, h5, h6, h7, h8, h9, h10, h11, h12, h13⟩, h14, ⟨h15, h16⟩, _,
      ⟨selected, hselected, hworkers, htasks, rfl⟩, ⟨⟨fun id hid => ?_, fun id hid => ?_⟩, h17⟩,
      h18⟩
    · exact (hids id).mp (List.mem_reverse.mp hid)
    · exact List.mem_reverse.mpr ((hids id).mpr hid)

end Report

/-! ### Coverage -/

/-- An output of a task of the plan, under its id and at its planned keys. -/
structure OutputOf (task : EmbeddingTaskV2) (output : RunpodTaskOutput) : Prop where
  taskId : output.taskId = task.taskId
  resultKey : output.result.key = task.resultPath
  receiptKey : output.receipt.key = task.receiptPath
  reportKey : output.report.key.val = reportKeyText task.taskId

/-- The attempts cover the run. -/
structure AttemptsCover (plan : EmbeddingPlanV2) (bundle : RunpodEmbeddingBundle)
    (attempts : List RunpodWorkerAttemptMarker) : Prop where
  /-- In some order they are, one for one, attempts at the assignments. -/
  matched : ∃ ordered, ordered.Perm attempts ∧
    List.Forall₂ (fun (assignment : RunpodWorkerAssignment) attempt =>
        attempt.workerId = assignment.workerId ∧
          attempt.assignmentSha256 = assignment.componentSha256)
      bundle.assignments ordered
  workers_nodup : (attempts.map (·.workerId)).Nodup
  completed : ∀ attempt ∈ attempts,
    attempt.outcome = .completed ∧ attempt.execution = bundle.execution
  /-- In some order their outputs are, one for one, those of the tasks. -/
  outputs : ∃ outputs, outputs.Perm (attempts.flatMap (·.outputs)) ∧
    List.Forall₂ OutputOf plan.tasks outputs
  outputs_nodup : ((attempts.flatMap (·.outputs)).map (·.taskId)).Nodup

/-- The attempts cover the run, and one of them has published the query vectors of
the report. -/
structure RunCovered (plan : EmbeddingPlanV2) (bundle : RunpodEmbeddingBundle)
    (report : RunpodRunReport) (attempts : List RunpodWorkerAttemptMarker) : Prop
    extends AttemptsCover plan bundle attempts where
  published : ∃ attempt ∈ attempts, attempt.outcome = .completed ∧
    attempt.queryVectorSet = some report.queryVectorSet

section Coverage

variable {prims : Primitives} {prepared : PreparedCorpusManifest} {plan : EmbeddingPlanV2}
  {report : RunpodRunReport} {bundle : RunpodEmbeddingBundle}
  {attempts : List RunpodWorkerAttemptMarker}

theorem AttemptSelected.workerId_eq {refs : SortedMap String RunpodSelectedAttempt}
    {assignment : RunpodWorkerAssignment} {attempt : RunpodWorkerAttemptMarker}
    (h : AttemptSelected prims report bundle attempts refs assignment attempt) :
    attempt.workerId = assignment.workerId := by
  simpa using List.find?_some h.found

/-- The attempt selected for an assignment has been checked against just this
assignment, as the workers of a bundle are distinct. -/
theorem AttemptSelected.completedAttempt
    (hbundle : BundleAccepted prims prepared plan bundle)
    {refs : SortedMap String RunpodSelectedAttempt} {assignment : RunpodWorkerAssignment}
    (hmem : assignment ∈ bundle.assignments) {attempt : RunpodWorkerAttemptMarker}
    (h : AttemptSelected prims report bundle attempts refs assignment attempt) :
    CompletedAttempt prims bundle assignment attempt := by
  obtain ⟨other, hfind, hcompleted⟩ :=
    (RunpodWorkerAttemptMarker.validateAgainst_eq_ok h.outcome).mp h.accepted
  have hworker : other.workerId = attempt.workerId := by
    simpa using List.find?_some hfind
  have hother : other = assignment :=
    List.inj_on_of_nodup_map hbundle.assignments.workers_nodup (List.mem_of_find?_eq_some hfind)
      hmem (hworker.trans h.workerId_eq)
  rwa [hother] at hcompleted

/-- The attempts of an accepted report, put into the order of the assignments. -/
theorem exists_ordered_attempts (hbundle : BundleAccepted prims prepared plan bundle)
    (hreport : ReportAccepted prims report bundle attempts) :
    ∃ ordered, ordered.Perm attempts ∧ (ordered.map (·.workerId)).Nodup ∧
      (ordered.flatMap fun attempt => attempt.outputs.map (·.taskId)).Nodup ∧
      List.Forall₂ (fun assignment attempt => attempt.workerId = assignment.workerId ∧
        CompletedAttempt prims bundle assignment attempt ∧
          (attempt.workerId = bundle.queryVectorOutput.workerId →
            attempt.queryVectorSet = some report.queryVectorSet)) bundle.assignments ordered := by
  obtain ⟨selected, hselected, hworkers, htasks, -⟩ := hreport.selected
  have hlength : attempts.length ≤ selected.length := by
    rw [hreport.attempts_length, hreport.selected_length, hselected.length_eq]
  refine ⟨selected, perm_of_mem hworkers (fun attempt hattempt => ?_) hlength, hworkers, htasks, ?_⟩
  · obtain ⟨assignment, -, hrel⟩ := exists_left_of_mem hselected hattempt
    exact List.mem_of_find?_eq_some hrel.found
  · have hboth := (List.forall₂_and_left _ _).mpr ⟨fun _ hmem => hmem, hselected⟩
    exact hboth.imp fun assignment attempt ⟨hmem, hrel⟩ =>
      ⟨hrel.workerId_eq, hrel.completedAttempt hbundle hmem, hrel.query⟩

/-- The outputs of a completed attempt, put into the order of the tasks of its
assignment. -/
theorem CompletedAttempt.exists_ordered_outputs {assignment : RunpodWorkerAssignment}
    (hassignment : AssignmentAccepted prims assignment) {attempt : RunpodWorkerAttemptMarker}
    (h : CompletedAttempt prims bundle assignment attempt) :
    ∃ outputs, outputs.Perm attempt.outputs ∧
      List.Forall₂ OutputAccepted assignment.tasks outputs := by
  obtain ⟨hlength, -, houtputs⟩ := validateTaskOutputs_eq_ok.mp h.outputs_ok
  exact exists_perm_forall₂ hassignment.ids_nodup hlength.le
    (fun _ _ houtput => houtput.taskId) houtputs

/-- **Exactly once.** The attempts of an accepted report cover the run. -/
theorem attemptsCover (hbundle : BundleAccepted prims prepared plan bundle)
    (hreport : ReportAccepted prims report bundle attempts) :
    AttemptsCover plan bundle attempts := by
  obtain ⟨ordered, hperm, hworkers, hids, hrel⟩ := exists_ordered_attempts hbundle hreport
  refine ⟨⟨ordered, hperm, ?_⟩, ?_, ?_, ?_, ?_⟩
  · exact hrel.imp fun _ _ h => ⟨h.1, h.2.1.assignment_eq⟩
  · exact (hperm.map _).nodup_iff.mp hworkers
  · intro attempt hattempt
    obtain ⟨assignment, -, -, hcompleted, -⟩ :=
      exists_left_of_mem hrel (hperm.mem_iff.mpr hattempt)
    exact ⟨hcompleted.outcome, hcompleted.execution_eq⟩
  · -- the outputs in the order of the assigned tasks, which are the tasks of the plan
    have hgroups : List.Forall₂ (fun (assignment : RunpodWorkerAssignment)
        (attempt : RunpodWorkerAttemptMarker) => ∃ outputs, outputs.Perm attempt.outputs ∧
          List.Forall₂ OutputAccepted assignment.tasks outputs) bundle.assignments ordered := by
      have hboth := (List.forall₂_and_left _ _).mpr
        ⟨fun assignment hmem => hbundle.assignments.accepted assignment hmem, hrel⟩
      exact hboth.imp fun _ _ h => h.2.2.1.exists_ordered_outputs h.1
    obtain ⟨outputs, houtputs, hoverall⟩ := exists_perm_flatMap hgroups
    refine ⟨outputs, houtputs.trans (hperm.flatMap_right _), ?_⟩
    refine forall₂_trans ?_ hbundle.assignments.tasks_eq hoverall
    rintro task expected output hexpected houtput
    exact ⟨houtput.taskId.trans hexpected.taskId, houtput.resultKey.trans hexpected.resultKey,
      houtput.receiptKey.trans hexpected.receiptKey,
      (congrArg Subtype.val houtput.reportKey).trans hexpected.reportKey⟩
  · rw [List.map_flatMap]
    exact (hperm.flatMap_right _).nodup_iff.mp hids

/-- The query vectors of the report are published by an attempt exactly when an
assignment is that of the distinguished worker. -/
theorem published_iff (hbundle : BundleAccepted prims prepared plan bundle)
    (hreport : ReportAccepted prims report bundle attempts) :
    (∃ attempt ∈ attempts, attempt.outcome = .completed ∧
        attempt.queryVectorSet = some report.queryVectorSet) ↔
      ∃ assignment ∈ bundle.assignments,
        assignment.workerId = bundle.queryVectorOutput.workerId := by
  obtain ⟨ordered, hperm, -, -, hrel⟩ := exists_ordered_attempts hbundle hreport
  constructor
  · rintro ⟨attempt, hattempt, -, hpublished⟩
    obtain ⟨assignment, hmem, hworker, hcompleted, -⟩ :=
      exists_left_of_mem hrel (hperm.mem_iff.mpr hattempt)
    refine ⟨assignment, hmem, ?_⟩
    -- every other worker has to publish nothing
    by_contra hne
    have hnone := hcompleted.no_query fun heq => hne (hworker.symm.trans heq)
    exact absurd (hpublished.symm.trans hnone) (by simp)
  · rintro ⟨assignment, hmem, hworker⟩
    obtain ⟨attempt, hattempt, hworkerEq, hcompleted, hquery⟩ := exists_right_of_mem hrel hmem
    exact ⟨attempt, hperm.mem_iff.mp hattempt, hcompleted.outcome,
      hquery (hworkerEq.trans hworker)⟩

/-- **What an accepted report says.** For every accepted bundle and every accepted
report, the attempts cover the run and the query vectors are theirs exactly when
some assignment is that of the distinguished worker. -/
theorem validateAgainst_covered_iff
    (hbundle : bundle.validateAgainst prims prepared plan = .ok ())
    (hreport : report.validateAgainst prims bundle attempts = .ok ()) :
    RunCovered plan bundle report attempts ↔
      ∃ assignment ∈ bundle.assignments,
        assignment.workerId = bundle.queryVectorOutput.workerId := by
  have hbundle := RunpodEmbeddingBundle.accepted hbundle
  have hreport := RunpodRunReport.validateAgainst_eq_ok.mp hreport
  rw [← published_iff hbundle hreport]
  constructor
  · exact fun h => h.published
  · exact fun hpublished => ⟨attemptsCover hbundle hreport, hpublished⟩

/-- A report the host builds of an accepted bundle is covered without further ado:
the builder asks for the query vectors. -/
theorem buildRunpodRunReport_covered
    (hbundle : bundle.validateAgainst prims prepared plan = .ok ())
    (hbuild : buildRunpodRunReport prims bundle attempts = .ok report) :
    RunCovered plan bundle report attempts := by
  simp only [buildRunpodRunReport, bind_eq_ok, exists_unit, orThrow_eq_ok, toWidth_eq_some,
    RunpodRunReport.componentDigest_eq, Except.ok.injEq, exists_eq_left', pure_eq_ok,
    Option.bind_eq_some_iff] at hbuild
  obtain ⟨_, -, output, ⟨attempt, hfind, hpublished⟩, _, -, hreport, rfl⟩ := hbuild
  have hcover := attemptsCover (RunpodEmbeddingBundle.accepted hbundle)
    (RunpodRunReport.validateAgainst_eq_ok.mp hreport)
  have hmem := List.mem_of_find?_eq_some hfind
  exact ⟨hcover, attempt, hmem, (hcover.completed attempt hmem).1, hpublished⟩

/-- A bundle that was built has an assignment of the distinguished worker, the
first one. -/
theorem buildRunpodEmbeddingBundle_queryWorker {artifacts : RunpodBundleArtifacts}
    {execution : RunpodExecutionIdentity} {workers : U32}
    (hbuild : buildRunpodEmbeddingBundle prims prepared plan artifacts execution workers =
      .ok bundle) :
    ∃ assignment ∈ bundle.assignments,
      assignment.workerId = bundle.queryVectorOutput.workerId := by
  obtain ⟨boundaries, -, hbalanced, hassignments, hvalid⟩ :=
    buildRunpodEmbeddingBundle_assignments hbuild
  have hbundle := RunpodEmbeddingBundle.accepted hvalid
  have hplan : plan.validate prims = .ok () := by
    have hbinding := hbundle.binding
    simp only [EmbeddingPlanV2.validateManifestBinding, bind_eq_ok, exists_unit] at hbinding
    exact hbinding.1
  have hrel := buildAssignments_forall₂ hplan hbalanced hassignments
  -- the first range is that of worker 0
  obtain ⟨first, others, hcons⟩ := List.exists_cons_of_ne_nil hbundle.nonempty
  rw [hcons] at hrel ⊢
  obtain ⟨entry, entries, ⟨hrange, -⟩, -, hentries⟩ := List.forall₂_cons_right_iff.mp hrel
  have hworker : entry.2 = 0 := by
    have hget : (boundaries.zip boundaries.tail).zipIdx[0]? = some entry := by
      rw [hentries]
      rfl
    rw [List.getElem?_zipIdx, Option.map_eq_some_iff] at hget
    obtain ⟨range, -, rfl⟩ := hget
    rfl
  refine ⟨first, List.mem_cons_self .., ?_⟩
  rw [hrange.worker, hworker, hbundle.worker]
  decide

end Coverage

/-! ### A bundle with and without the distinguished worker -/

/-- The one worker of the sample bundle: the distinguished one or the next. -/
def sampleWorker (distinguished : Bool) : ℕ := if distinguished then 0 else 1

def sampleRef (key : SafeRelativePath) : CloudObjectRef := ⟨key, 1, hexDigest 1⟩

/-- What is expected of a task of the sample plan. -/
def sampleExpected (entry : EmbeddingTaskV2 × U32) : RunpodExpectedTaskOutput :=
  ⟨entry.1.taskId, entry.2, entry.1.ordinalStart, entry.1.ordinalEnd, entry.1.tokenCount,
    entry.1.resultPath, entry.1.receiptPath,
    (withReportPath samplePrimitives samplePlan entry.1).resultPath⟩

def sampleAssignmentDraft (distinguished : Bool) : RunpodWorkerAssignment :=
  ⟨hexDigest 0, workerId (sampleWorker distinguished), 0, 2, 0, 3, 5,
    (samplePlan.tasks.zip [0, 1]).map sampleExpected⟩

def sampleAssignment (distinguished : Bool) : RunpodWorkerAssignment :=
  (sampleAssignmentDraft distinguished).withDigest samplePrimitives

theorem expectedOf_sampleExpected {entry : EmbeddingTaskV2 × U32}
    (h : entry.1 ∈ samplePlan.tasks) : ExpectedOf entry.1 (sampleExpected entry) := by
  have hid := ((EmbeddingPlanV2.tasksAccepted samplePlan_validate).accepted entry.1 h).id
  exact ⟨rfl, rfl, rfl, rfl, rfl, rfl, congrArg reportKeyText hid.symm⟩

theorem sampleAssignment_assignsRange (distinguished : Bool) :
    AssignsRange samplePlan 0 2 (sampleWorker distinguished) (sampleAssignment distinguished) := by
  have hsegment : segment samplePlan.tasks 0 2 = samplePlan.tasks :=
    segment_zero_length samplePlan.tasks
  have hzip : (samplePlan.tasks.zip ([0, 1] : List U32)).map Prod.fst = samplePlan.tasks :=
    List.map_fst_zip (by decide)
  have htokens : (((samplePlan.tasks.zip ([0, 1] : List U32)).map sampleExpected).map
      fun task => (task.tokenCount : ℕ)).sum = 5 := by decide
  refine ⟨rfl, rfl, rfl, ?_, ⟨rfl, by decide, rfl, by decide, rfl⟩,
    ⟨rfl, by decide, rfl, by decide, rfl⟩, htokens⟩
  rw [hsegment, ← hzip]
  refine List.forall₂_map_left_iff.mpr (List.forall₂_map_right_iff.mpr ?_)
  exact List.forall₂_same.mpr fun entry hentry =>
    expectedOf_sampleExpected (List.of_mem_zip hentry).1

theorem sampleAssignment_accepted (distinguished : Bool) :
    AssignmentAccepted samplePrimitives (sampleAssignment distinguished) := by
  have hworker : sampleWorker distinguished ≤ maxWorkers := by cases distinguished <;> decide
  refine ((sampleAssignment_assignsRange distinguished).accepted_iff samplePlan_validate
    (by decide) (by decide) hworker).mpr ⟨?_, ?_⟩
  · exact RunpodWorkerAssignment.digest_withDigest _ _
  · exact reportsApart_samplePlan 0 2

def sampleArtifact (key : SafeRelativePath) (digest : Digest) : CloudComponentArtifact :=
  ⟨digest, sampleRef key⟩

def sampleArtifacts : RunpodBundleArtifacts where
  preparedManifest := sampleArtifact ⟨"input/manifest", by decide⟩ sampleManifest.componentSha256
  embeddingPlan := sampleArtifact ⟨"input/plan", by decide⟩ samplePlan.componentSha256
  documentTokenCounts := ⟨⟨"input/counts", by decide⟩, 12, hexDigest 8⟩
  embeddingProfile := sampleArtifact ⟨"input/profile", by decide⟩ sampleProfile.component.sha256
  executorImageBuild := sampleArtifact ⟨"input/image", by decide⟩ (hexDigest 1)
  executableTokenizer := sampleArtifact ⟨"input/tokenizer", by decide⟩
    sampleTokenizer.artifact.sha256
  conformanceFixture := sampleRef ⟨"input/fixture", by decide⟩
  queryPlan := sampleRef ⟨"input/query/queries.jsonl", by decide⟩
  workerBinary := sampleArtifact ⟨"input/worker", by decide⟩ (hexDigest 1)
  modelManifest := sampleArtifact ⟨"input/model", by decide⟩ sampleProfile.modelArtifact.sha256
  modelObjects := [sampleRef ⟨"input/weights", by decide⟩]
  preparedDocuments := [
    ⟨⟨"d0", isSafeRelativePath_d0⟩, ⟨"input/d0", by decide⟩, 100, hexDigest 2⟩,
    ⟨⟨"d1", isSafeRelativePath_d1⟩, ⟨"input/d1", by decide⟩, 100, hexDigest 1⟩]

def sampleExecution : RunpodExecutionIdentity where
  executorImage := sampleComponent "image"
  executorImageBuild := sampleComponent "image-build"
  runtime := sampleComponent "runtime"
  workerBinary := sampleComponent "worker"
  modelArtifact := sampleProfile.modelArtifact
  embeddingProfile := sampleProfile.component
  accelerator := ⟨"provider", "model", "architecture", "9.0", 1⟩
  returnedModel := "model"

theorem sampleExecution_valid : sampleExecution.validate = .ok () := by decide

def sampleBundleDraft (distinguished : Bool) : RunpodEmbeddingBundle where
  schemaVersion := runpodEmbeddingBundleSchema
  componentSha256 := hexDigest 0
  preparedCorpusSha256 := sampleManifest.componentSha256
  planSha256 := samplePlan.componentSha256
  embeddingProfileSha256 := sampleProfile.component.sha256
  tokenizerSha256 := sampleTokenizer.artifact.sha256
  modelSha256 := sampleProfile.modelArtifact.sha256
  documentCount := 3
  taskCount := 2
  totalTokens := 5
  artifacts := sampleArtifacts
  execution := sampleExecution
  queryVectorOutput := ⟨"worker-0000", ⟨"query-vectors/manifest.json", by decide⟩,
    ⟨"query-vectors/queries.jsonl", by decide⟩, ⟨"query-vectors/vectors.f32le", by decide⟩⟩
  assignments := [sampleAssignment distinguished]

def sampleBundle (distinguished : Bool) : RunpodEmbeddingBundle :=
  (sampleBundleDraft distinguished).withDigest samplePrimitives

theorem sampleArtifacts_valid :
    validateArtifacts sampleArtifacts sampleManifest samplePlan = .ok () := by
  simp only [validateArtifacts, bind_eq_ok, exists_unit, forM_eq_ok, throwIf_eq_ok, not_or,
    not_not, pure_eq_ok]
  refine ⟨by decide, rfl, rfl, rfl, ⟨rfl, rfl, rfl, rfl, rfl, rfl, rfl, List.cons_ne_nil _ _, rfl,
    rfl⟩, by decide +kernel, by decide +kernel, _, rfl, trivial⟩

/-- The outputs of the sample tasks, by their first characters. -/
theorem sampleAssignment_outputs (distinguished : Bool) :
    ∀ key ∈ (sampleAssignment distinguished).tasks.flatMap RunpodExpectedTaskOutput.keys,
      key.val.toList.head? = some 'p' ∨ key.val.toList.head? = some 'r' := by
  have htasks : ∀ task ∈ samplePlan.tasks, task.resultPath.val.toList.head? = some 'p' ∧
      task.receiptPath.val.toList.head? = some 'r' := by decide +kernel
  have hreport : ∀ id, (reportKeyText id).toList.head? = some 'r' := by
    intro id
    rw [reportKeyText, String.toList_append, String.toList_append]
    rfl
  intro key hkey
  obtain ⟨expected, hexpected, hkey⟩ := List.mem_flatMap.mp hkey
  obtain ⟨entry, hentry, rfl⟩ := List.mem_map.mp hexpected
  obtain ⟨hresult, hreceipt⟩ := htasks entry.1 (List.of_mem_zip hentry).1
  simp only [RunpodExpectedTaskOutput.keys, List.mem_cons, List.not_mem_nil, or_false] at hkey
  rcases hkey with rfl | rfl | rfl
  · exact .inl hresult
  · exact .inr hreceipt
  · exact .inr (hreport _)

/-- No output of the sample bundle is named like an artifact, by the first
character. -/
theorem sampleBundle_keys_nodup (distinguished : Bool) :
    (sampleBundle distinguished).keys.Nodup := by
  have hinputs : ([⟨"query-vectors/manifest.json", by decide⟩,
      ⟨"query-vectors/queries.jsonl", by decide⟩, ⟨"query-vectors/vectors.f32le", by decide⟩] ++
      artifactKeys sampleArtifacts : List SafeRelativePath).Nodup ∧
      ∀ key ∈ ([⟨"query-vectors/manifest.json", by decide⟩,
        ⟨"query-vectors/queries.jsonl", by decide⟩, ⟨"query-vectors/vectors.f32le", by decide⟩] ++
        artifactKeys sampleArtifacts : List SafeRelativePath),
        key.val.toList.head? = some 'q' ∨ key.val.toList.head? = some 'i' := by
    decide +kernel
  have houtputs := sampleAssignment_outputs distinguished
  have hsingle : (sampleBundle distinguished).keys = [⟨"query-vectors/manifest.json", by decide⟩,
      ⟨"query-vectors/queries.jsonl", by decide⟩, ⟨"query-vectors/vectors.f32le", by decide⟩] ++
      artifactKeys sampleArtifacts ++
      (sampleAssignment distinguished).tasks.flatMap RunpodExpectedTaskOutput.keys :=
    congrArg _ (List.flatMap_singleton ..)
  rw [hsingle, List.nodup_append]
  refine ⟨hinputs.1, (sampleAssignment_accepted distinguished).keys_nodup, ?_⟩
  rintro key hkey other hother rfl
  rcases hinputs.2 key hkey with h | h <;> rcases houtputs key hother with h' | h' <;>
    simp [h] at h'

theorem sampleAssignments_accepted (distinguished : Bool) :
    AssignmentsAccepted samplePrimitives samplePlan [sampleAssignment distinguished] := by
  have hrange := sampleAssignment_assignsRange distinguished
  refine ⟨?_, ?_, ⟨rfl, show 0 < 2 by decide, rfl⟩, ⟨rfl, show 0 < 3 by decide, rfl⟩,
    List.nodup_singleton _, rfl⟩
  · exact List.forall_mem_singleton.mpr (sampleAssignment_accepted distinguished)
  · exact List.forall_mem_singleton.mpr (exists_bound hrange.task_tiles hrange.tasks)

theorem sampleBundle_accepted (distinguished : Bool) :
    (sampleBundle distinguished).validateAgainst samplePrimitives sampleManifest samplePlan =
      .ok () := by
  simp only [RunpodEmbeddingBundle.validateAgainst, RunpodExpectedQueryVectorOutput.validate,
    bind_eq_ok, exists_unit, throwIf_eq_ok, orThrow_eq_ok, insertAll_eq_some, fresh_empty, not_or,
    not_not, RunpodEmbeddingBundle.componentDigest_eq, Except.ok.injEq, exists_eq_left',
    requireSafeU64_eq_ok]
  refine ⟨sampleManifest_validate, samplePlan_validateManifestBinding,
    show 3 ≤ maxSafeJsonInteger by decide, show 5 ≤ maxSafeJsonInteger by decide,
    ⟨rfl, rfl, rfl, rfl, rfl, rfl, rfl, rfl, rfl, List.cons_ne_nil _ _⟩, sampleExecution_valid,
    ⟨rfl, rfl, rfl, rfl⟩, ⟨rfl, rfl, rfl, rfl⟩, sampleArtifacts_valid,
    validateAssignments_eq_ok.mpr (sampleAssignments_accepted distinguished), _,
    ⟨sampleBundle_keys_nodup distinguished, rfl⟩,
    RunpodEmbeddingBundle.digest_withDigest _ _⟩

/-- The query vectors of the sample run. -/
def sampleQueryVectorSet : RunpodQueryVectorSetOutput where
  componentSha256 := hexDigest 1
  manifest := sampleRef ⟨"query-vectors/manifest.json", by decide⟩
  queryPlan := sampleRef ⟨"query-vectors/queries.jsonl", by decide⟩
  vectors := sampleRef ⟨"query-vectors/vectors.f32le", by decide⟩

/-- The one attempt; the distinguished worker publishes the query vectors. -/
def sampleAttemptDraft (distinguished : Bool) : RunpodWorkerAttemptMarker where
  schemaVersion := runpodWorkerAttemptSchema
  componentSha256 := hexDigest 0
  bundleSha256 := (sampleBundle distinguished).componentSha256
  assignmentSha256 := (sampleAssignment distinguished).componentSha256
  workerId := workerId (sampleWorker distinguished)
  attemptId := "attempt"
  attemptNumber := 1
  outcome := .completed
  machine := ⟨"pod", "machine"⟩
  execution := sampleExecution
  startedAtMs := 0
  completedAtMs := 1
  requests := 1
  retries := 0
  outputs := (sampleAssignment distinguished).tasks.map fun task =>
    ⟨task.taskId, sampleRef task.resultKey, sampleRef task.receiptKey, sampleRef task.reportKey⟩
  queryVectorSet := if distinguished then some sampleQueryVectorSet else none
  failureCode := none

def sampleAttempt (distinguished : Bool) : RunpodWorkerAttemptMarker :=
  (sampleAttemptDraft distinguished).withDigest samplePrimitives

theorem isSafeRelativePath_marker (distinguished : Bool) : IsSafeRelativePath
    ("attempts/" ++ workerId (sampleWorker distinguished) ++ "/completed.json") := by
  have hzero : workerId 0 = "worker-0000" := by decide
  have hone : workerId 1 = "worker-0001" := by decide
  cases distinguished
  · have hkey : "attempts/" ++ "worker-0001" ++ "/completed.json" =
        "attempts/worker-0001/completed.json" := by decide
    rw [sampleWorker, if_neg (by decide), hone, hkey]
    decide
  · have hkey : "attempts/" ++ "worker-0000" ++ "/completed.json" =
        "attempts/worker-0000/completed.json" := by decide
    rw [sampleWorker, if_pos rfl, hzero, hkey]
    decide

def sampleMarker (distinguished : Bool) : CloudObjectRef :=
  let content := samplePrimitives.canonicalJsonBytes (toJson (sampleAttempt distinguished))
  ⟨⟨_, isSafeRelativePath_marker distinguished⟩, Fin.ofNat _ content.length,
    digestBytes samplePrimitives content⟩

def sampleReportDraft (distinguished : Bool) : RunpodRunReport where
  schemaVersion := runpodRunReportSchema
  componentSha256 := hexDigest 0
  bundleSha256 := (sampleBundle distinguished).componentSha256
  execution := sampleExecution
  workerCount := 1
  taskCount := 2
  documentCount := 3
  totalTokens := 5
  vectorObjects := 2
  receiptObjects := 2
  reportObjects := 2
  queryVectorSet := sampleQueryVectorSet
  selectedAttempts := [⟨workerId (sampleWorker distinguished), "attempt",
    (sampleAttempt distinguished).componentSha256, sampleMarker distinguished⟩]

def sampleReport (distinguished : Bool) : RunpodRunReport :=
  (sampleReportDraft distinguished).withDigest samplePrimitives

theorem sampleQueryVectorSet_valid (distinguished : Bool) :
    sampleQueryVectorSet.validateAgainst (sampleBundle distinguished) = .ok () := by
  simp only [RunpodQueryVectorSetOutput.validateAgainst, bind_eq_ok, exists_unit, throwIf_eq_ok,
    not_or, not_not]
  exact ⟨rfl, rfl, rfl, rfl, rfl, rfl, rfl, rfl⟩

theorem sampleAttempt_completed (distinguished : Bool) : CompletedAttempt samplePrimitives
    (sampleBundle distinguished) (sampleAssignment distinguished) (sampleAttempt distinguished) := by
  have hzero : 0 ≤ maxSafeJsonInteger := Nat.zero_le _
  have hone : 1 ≤ maxSafeJsonInteger := by decide
  have hworker : sampleWorker distinguished ≤ maxWorkers := by cases distinguished <;> decide
  have houtputs : validateTaskOutputs (sampleAttempt distinguished).outputs
      (sampleAssignment distinguished) = .ok () := by
    refine validateTaskOutputs_eq_ok.mpr ⟨List.length_map .., ?_, fun expected hexpected => ?_⟩
    · have hids := (sampleAssignment_accepted distinguished).ids_nodup
      rwa [← Function.id_comp (fun task : RunpodExpectedTaskOutput => task.taskId),
        ← List.map_map, List.map_id] at hids
    · exact ⟨_, List.mem_map_of_mem hexpected, rfl, rfl, rfl, rfl, rfl, rfl, rfl⟩
  -- the worker is the distinguished one or the next, and publishes accordingly
  have hzeroId : workerId 0 = "worker-0000" := by decide
  have hquery : workerId (sampleWorker distinguished) = "worker-0000" →
      ∃ output, (if distinguished then some sampleQueryVectorSet else none) = some output ∧
        output.validateAgainst (sampleBundle distinguished) = .ok () := by
    intro hworkerId
    have hindex := workerId_injective (hworkerId.trans hzeroId.symm)
    cases distinguished
    · exact absurd hindex (by decide)
    · exact ⟨_, rfl, sampleQueryVectorSet_valid true⟩
  have hnone : workerId (sampleWorker distinguished) ≠ "worker-0000" →
      (if distinguished then some sampleQueryVectorSet else none) = none := by
    intro hworkerId
    cases distinguished
    · rfl
    · exact absurd hzeroId hworkerId
  exact {
    schema := rfl
    bundle_eq := rfl
    worker := isIdentifier_workerId hworker
    attempt_id := requireIdentifier_eq_ok.mp (by decide : requireIdentifier "attempt" = .ok ())
    times_safe := List.forall_mem_cons.mpr ⟨hzero, List.forall_mem_cons.mpr ⟨hone,
      List.forall_mem_cons.mpr ⟨hone, List.forall_mem_singleton.mpr hzero⟩⟩⟩
    number_pos := (by decide : 0 < ((1 : U32) : ℕ))
    started_le := (by decide : (0 : U64) ≤ 1)
    retries_le := (by decide : (0 : U64) ≤ 1)
    machine_ok := (by decide : RunpodMachineIdentity.validate ⟨"pod", "machine"⟩ = .ok ())
    execution_ok := sampleExecution_valid
    execution_eq := rfl
    assignment_eq := rfl
    outcome := rfl
    requests_pos := (by decide : 0 < ((1 : U64) : ℕ))
    no_failure := rfl
    outputs_ok := houtputs
    query_worker := hquery
    no_query := hnone
    digest := RunpodWorkerAttemptMarker.digest_withDigest _ _ }

theorem sampleAttempt_canonicalObject (distinguished : Bool) :
    (sampleAttempt distinguished).canonicalObject samplePrimitives =
      .ok (sampleMarker distinguished) := by
  have hfields : ((("component_sha256", toJson (sampleAttempt distinguished).componentSha256) ::
      (sampleAttempt distinguished).body).map Prod.fst).Nodup := by
    cases distinguished <;> simp [RunpodWorkerAttemptMarker.body, sampleAttempt,
      sampleAttemptDraft, RunpodWorkerAttemptMarker.withDigest]
  have hbytes : integerSum (toJson (sampleAttempt distinguished)) < 2 ^ 64 := by
    refine lt_of_eq_of_lt (integerSum_mkObject hfields) ?_
    cases distinguished <;> decide +kernel
  have hlength : (samplePrimitives.canonicalJsonBytes
      (toJson (sampleAttempt distinguished))).length < 2 ^ 64 := by
    rw [samplePrimitives, List.length_replicate]
    exact hbytes
  simp only [RunpodWorkerAttemptMarker.canonicalObject, bind_eq_ok, orThrow_eq_ok,
    SafeRelativePath.new_eq_ok, toWidth_eq_some, pure_eq_ok]
  exact ⟨_, rfl, _, Nat.mod_eq_of_lt hlength, rfl⟩

theorem sampleAttempt_selected (distinguished : Bool) :
    AttemptSelected samplePrimitives (sampleReport distinguished) (sampleBundle distinguished)
      [sampleAttempt distinguished] (SortedMap.ofList
        ((sampleReport distinguished).selectedAttempts.map fun entry =>
          (entry.markerComponentSha256.val, entry)))
      (sampleAssignment distinguished) (sampleAttempt distinguished) := by
  have hcompleted := sampleAttempt_completed distinguished
  have hworker : (sampleAttempt distinguished).workerId =
    (sampleAssignment distinguished).workerId := rfl
  refine ⟨?_, ?_, rfl, ?_, ?_⟩
  · exact List.find?_cons_of_pos (decide_eq_true hworker)
  · refine (RunpodWorkerAttemptMarker.validateAgainst_eq_ok rfl).mpr
      ⟨sampleAssignment distinguished, ?_, hcompleted⟩
    exact List.find?_cons_of_pos (decide_eq_true hworker.symm)
  · intro hquery
    obtain ⟨output, houtput, -⟩ := hcompleted.query_worker hquery
    have heither : (if distinguished then some sampleQueryVectorSet else none) = some output :=
      houtput
    cases distinguished
    · exact absurd heither (by simp)
    · rfl
  · have hrefs : ((sampleReport distinguished).selectedAttempts.map
        fun entry => entry.markerComponentSha256.val).Nodup := List.nodup_singleton _
    exact ⟨_, _, (SortedMap.get?_index hrefs).mpr ⟨List.mem_singleton_self _, rfl⟩,
      sampleAttempt_canonicalObject distinguished, rfl, rfl, rfl⟩

theorem sampleReport_accepted (distinguished : Bool) :
    (sampleReport distinguished).validateAgainst samplePrimitives (sampleBundle distinguished)
      [sampleAttempt distinguished] = .ok () := by
  have hids : (sampleAttempt distinguished).outputs.map (·.taskId) =
      (sampleAssignment distinguished).tasks.map (·.taskId) := List.map_map
  have hnodup := (sampleAssignment_accepted distinguished).ids_nodup
  refine RunpodRunReport.validateAgainst_eq_ok.mpr {
    schema := rfl
    bundle_eq := rfl
    execution := rfl
    workerCount := rfl
    taskCount := rfl
    documentCount := rfl
    totalTokens := rfl
    vectorObjects := rfl
    receiptObjects := rfl
    reportObjects := rfl
    query_ok := sampleQueryVectorSet_valid distinguished
    selected_length := rfl
    attempts_length := rfl
    counts_safe := List.forall_mem_cons.mpr ⟨show 3 ≤ maxSafeJsonInteger by decide,
      List.forall_mem_singleton.mpr (show 5 ≤ maxSafeJsonInteger by decide)⟩
    refs_nodup := List.nodup_singleton _
    attempts_nodup := List.nodup_singleton _
    selected := ⟨[sampleAttempt distinguished],
      .cons (sampleAttempt_selected distinguished) .nil, List.nodup_singleton _, ?_, ?_⟩
    keys_eq := rfl
    digest := RunpodRunReport.digest_withDigest _ _ }
  · rw [List.flatMap_singleton, hids]
    exact hnodup
  · intro id
    have hassignments : (sampleBundle distinguished).assignments =
      [sampleAssignment distinguished] := rfl
    rw [hassignments, List.flatMap_singleton, List.flatMap_singleton, hids]

/-- With the distinguished worker the sample run is covered. -/
theorem distinguishedWorker_covered :
    RunCovered samplePlan (sampleBundle true) (sampleReport true) [sampleAttempt true] := by
  refine (validateAgainst_covered_iff (sampleBundle_accepted true)
    (sampleReport_accepted true)).mpr ⟨sampleAssignment true, List.mem_cons_self .., ?_⟩
  show workerId 0 = "worker-0000"
  decide

/-- Without it everything is accepted all the same, and the report has query
vectors that no attempt has published. -/
theorem unassignedQueryWorker_accepted :
    (sampleBundle false).validateAgainst samplePrimitives sampleManifest samplePlan = .ok () ∧
      (sampleReport false).validateAgainst samplePrimitives (sampleBundle false)
        [sampleAttempt false] = .ok () ∧
      ¬ RunCovered samplePlan (sampleBundle false) (sampleReport false) [sampleAttempt false] := by
  refine ⟨sampleBundle_accepted false, sampleReport_accepted false, fun hcovered => ?_⟩
  obtain ⟨attempt, hattempt, -, hpublished⟩ := hcovered.published
  obtain rfl := List.mem_singleton.mp hattempt
  have hnone : (sampleAttempt false).queryVectorSet = none := rfl
  exact absurd (hpublished.symm.trans hnone) (by simp)

end LivefireRag.Cloud
