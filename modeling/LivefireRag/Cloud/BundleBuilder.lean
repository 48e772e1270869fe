import Mathlib.Data.List.Flatten
import LivefireRag.Lib.Matching
import LivefireRag.Pipeline.PlanTiling
import LivefireRag.Cloud.Boundaries
import LivefireRag.Cloud.Bundle

/-!
# Building a bundle

The builder cuts the tasks at the token-balanced boundaries and makes an
assignment of each range, sealed as soon as it is made. `buildAssignments_spec`
says what the sealed assignments are, `exists_buildAssignments_iff` when there
are any: the task ordinals have to fit 32 bits, and within one range the keys of
the reports, which are named after the task ids, have to differ from the result
and receipt paths of the plan. A plan is free to use those names.
-/

namespace LivefireRag.Cloud

open Pipeline Fallible Machine Tiling Seen Matching

/-! ### The builder -/

def maxWorkers : ℕ := 65535

/-- The id of a worker: its number in at least four digits. -/
def workerId (worker : ℕ) : String := "worker-" ++ Text.zeroPadded 4 worker

/-- What is expected of a task, the `entry.2`-th of a range that starts at
`start`. -/
def expectedTaskOutput (start : ℕ) (entry : EmbeddingTaskV2 × ℕ) :
    Result RunpodExpectedTaskOutput := do
  let task := entry.1
  let taskOrdinal : U32 ← orThrow (toWidth 32 (start + entry.2)) (.invalid "cloud task ordinal")
  let reportKey ← SafeRelativePath.new (reportKeyText task.taskId)
  return {
    taskId := task.taskId
    taskOrdinal
    ordinalStart := task.ordinalStart
    ordinalEnd := task.ordinalEnd
    tokenCount := task.tokenCount
    resultKey := task.resultPath
    receiptKey := task.receiptPath
    reportKey }

section Hashing

variable (prims : Primitives)

/-- The digest a contract carries before it is sealed. -/
def unsealed : Digest := digestBytes prims (Text.utf8 "unsealed")

def buildAssignment (plan : EmbeddingPlanV2) (entry : (ℕ × ℕ) × ℕ) :
    Result RunpodWorkerAssignment := do
  let ((start, stop), worker) := entry
  let range ← orThrow (rowRange plan.tasks start stop) .aborted
  let tasks ← range.zipIdx.mapM (expectedTaskOutput start)
  let taskStart : U32 ← orThrow (toWidth 32 start) (.invalid "cloud task ordinal")
  let taskEnd : U32 ← orThrow (toWidth 32 stop) (.invalid "cloud task ordinal")
  let first ← orThrow tasks.head? (.invalid "cloud assignment tasks")
  let last ← orThrow tasks.getLast? (.invalid "cloud assignment tasks")
  let tokens ← checkedSum 64 (.invalid "cloud assignment token count")
    (tasks.map fun task => (task.tokenCount : ℕ))
  let tokenCount : U64 ← orThrow (toWidth 64 tokens) (.invalid "cloud assignment token count")
  let assignment : RunpodWorkerAssignment := {
    componentSha256 := unsealed prims
    workerId := workerId worker
    taskStart, taskEnd
    ordinalStart := first.ordinalStart
    ordinalEnd := last.ordinalEnd
    tokenCount, tasks }
  assignment.seal prims

def buildAssignments (plan : EmbeddingPlanV2) (boundaries : List ℕ) :
    Result (List RunpodWorkerAssignment) :=
  (boundaries.zip boundaries.tail).zipIdx.mapM (buildAssignment prims plan)

def buildRunpodEmbeddingBundle (prepared : PreparedCorpusManifest) (plan : EmbeddingPlanV2)
    (artifacts : RunpodBundleArtifacts) (execution : RunpodExecutionIdentity)
    (workerCount : U32) : Result RunpodEmbeddingBundle := do
  prepared.validate prims
  plan.validateManifestBinding prims prepared
  throwIf ((workerCount : ℕ) = 0 ∨ maxWorkers < workerCount ∨
      plan.tasks.length < (workerCount : ℕ))
    (.invalid "cloud worker count")
  let boundaries ← tokenBalancedBoundaries plan workerCount
  let assignments ← buildAssignments prims plan boundaries
  let taskCount : U32 ← orThrow (toWidth 32 plan.tasks.length) (.invalid "cloud task count")
  let manifestKey ← SafeRelativePath.new "query-vectors/manifest.json"
  let queryPlanKey ← SafeRelativePath.new "query-vectors/queries.jsonl"
  let vectorsKey ← SafeRelativePath.new "query-vectors/vectors.f32le"
  let bundle : RunpodEmbeddingBundle := {
    schemaVersion := runpodEmbeddingBundleSchema
    componentSha256 := unsealed prims
    preparedCorpusSha256 := prepared.componentSha256
    planSha256 := plan.componentSha256
    embeddingProfileSha256 := plan.embeddingProfile.component.sha256
    tokenizerSha256 := plan.executableTokenizer.artifact.sha256
    modelSha256 := plan.embeddingProfile.modelArtifact.sha256
    documentCount := plan.documentCount
    taskCount
    totalTokens := plan.tokenStatistics.totalTokens
    artifacts, execution
    queryVectorOutput := ⟨"worker-0000", manifestKey, queryPlanKey, vectorsKey⟩
    assignments }
  let sealed ← bundle.seal prims
  sealed.validateAgainst prims prepared plan
  return sealed

end Hashing

/-! ### Expected outputs -/

theorem expectedTaskOutput_eq_ok {start : ℕ} {entry : EmbeddingTaskV2 × ℕ}
    {expected : RunpodExpectedTaskOutput} :
    expectedTaskOutput start entry = .ok expected ↔
      ExpectedOf entry.1 expected ∧ (expected.taskOrdinal : ℕ) = start + entry.2 := by
  simp only [expectedTaskOutput, bind_eq_ok, orThrow_eq_ok, toWidth_eq_some,
    SafeRelativePath.new_eq_ok, pure_eq_ok]
  constructor
  · rintro ⟨ordinal, hordinal, key, hkey, rfl⟩
    exact ⟨⟨rfl, rfl, rfl, rfl, rfl, rfl, hkey⟩, hordinal⟩
  · rintro ⟨⟨h1, h2, h3, h4, h5, h6, h7⟩, hordinal⟩
    refine ⟨expected.taskOrdinal, hordinal, expected.reportKey, h7, ?_⟩
    rw [← h1, ← h2, ← h3, ← h4, ← h5, ← h6]

/-- The outputs expected of a range: they stand for its tasks and are numbered
from its start, by induction on the tasks. -/
theorem expectedTaskOutputs_eq_ok {tasks : List EmbeddingTaskV2} {start : ℕ}
    {outputs : List RunpodExpectedTaskOutput} :
    tasks.zipIdx.mapM (expectedTaskOutput start) = .ok outputs ↔
      List.Forall₂ ExpectedOf tasks outputs ∧
        Tiles (fun task : RunpodExpectedTaskOutput => (task.taskOrdinal : ℕ))
          (fun task => (task.taskOrdinal : ℕ) + 1) start outputs (start + tasks.length) := by
  suffices H : ∀ (tasks : List EmbeddingTaskV2) (offset : ℕ)
      (outputs : List RunpodExpectedTaskOutput),
      List.Forall₂ (fun entry expected => expectedTaskOutput start entry = .ok expected)
          (tasks.zipIdx offset) outputs ↔
        List.Forall₂ ExpectedOf tasks outputs ∧
          Tiles (fun task : RunpodExpectedTaskOutput => (task.taskOrdinal : ℕ))
            (fun task => (task.taskOrdinal : ℕ) + 1) (start + offset) outputs
            (start + offset + tasks.length) by
    rw [mapM_eq_ok]
    exact H tasks 0 outputs
  intro tasks
  induction tasks with
  | nil =>
    intro offset outputs
    simp only [List.zipIdx_nil, List.forall₂_nil_left_iff, List.length_nil, Nat.add_zero]
    constructor
    · rintro rfl
      exact ⟨rfl, rfl⟩
    · exact fun h => h.1
  | cons task tasks ih =>
    intro offset outputs
    rw [List.zipIdx_cons]
    have hstop : start + offset + (task :: tasks).length =
        start + (offset + 1) + tasks.length := by
      rw [List.length_cons]
      omega
    rw [hstop]
    cases outputs with
    | nil => simp
    | cons expected outputs =>
      rw [List.forall₂_cons, List.forall₂_cons, ih, expectedTaskOutput_eq_ok, tiles_cons]
      constructor
      · rintro ⟨⟨hexpected, hordinal⟩, hrest, htiles⟩
        exact ⟨⟨hexpected, hrest⟩, hordinal, Nat.lt_succ_self _, by rw [hordinal]; exact htiles⟩
      · rintro ⟨⟨hexpected, hrest⟩, hordinal, -, htiles⟩
        rw [hordinal] at htiles
        exact ⟨⟨hexpected, hordinal⟩, hrest, htiles⟩

/-! ### Keys -/

/-- No report of the tasks is named like a result or a receipt of them. -/
def ReportsApart (tasks : List EmbeddingTaskV2) : Prop :=
  ∀ task ∈ tasks, ∀ other ∈ tasks,
    task.resultPath.val ≠ reportKeyText other.taskId ∧
      task.receiptPath.val ≠ reportKeyText other.taskId

theorem reportKeyText_injective : Function.Injective reportKeyText :=
  fun _ _ h => Text.append_cancel h

/-- The texts of the keys of the outputs, each with its report last. -/
theorem map_val_keys {tasks : List EmbeddingTaskV2} {outputs : List RunpodExpectedTaskOutput}
    (h : List.Forall₂ ExpectedOf tasks outputs) :
    (outputs.flatMap RunpodExpectedTaskOutput.keys).map Subtype.val =
      tasks.flatMap fun task => [task.resultPath.val, task.receiptPath.val] ++
        [reportKeyText task.taskId] := by
  induction h with
  | nil => rfl
  | cons hexpected _ ih =>
    rw [List.flatMap_cons, List.map_append, ih, List.flatMap_cons]
    simp only [RunpodExpectedTaskOutput.keys, List.map_cons, List.map_nil, hexpected.resultKey,
      hexpected.receiptKey, hexpected.reportKey]
    rfl

/-- The names of the outputs of tasks with distinct ids and paths are distinct when
the reports are apart. -/
theorem outputNames_nodup_iff {tasks : List EmbeddingTaskV2} (hids : (tasks.map (·.taskId)).Nodup)
    (hpaths : (outputPaths tasks).Nodup) :
    (tasks.flatMap fun task => [task.resultPath.val, task.receiptPath.val] ++
      [reportKeyText task.taskId]).Nodup ↔ ReportsApart tasks := by
  -- paths first, reports last
  have hperm := List.flatMap_append_perm tasks
    (fun task => [task.resultPath.val, task.receiptPath.val])
    (fun task => [reportKeyText task.taskId])
  have hpathTexts : (tasks.flatMap fun task => [task.resultPath.val, task.receiptPath.val]) =
      (outputPaths tasks).map Subtype.val := by
    rw [outputPaths, List.map_flatMap]
    rfl
  have hreportTexts : (tasks.flatMap fun task => [reportKeyText task.taskId]) =
      (tasks.map (·.taskId)).map reportKeyText := by
    rw [List.map_map, List.map_eq_flatMap]
    rfl
  have hpathsNodup := hpaths.map Subtype.val_injective
  have hreportsNodup := hids.map reportKeyText_injective
  rw [← hperm.nodup_iff, hpathTexts, hreportTexts, List.nodup_append]
  constructor
  · rintro ⟨-, -, hapart⟩ task htask other hother
    have hkey := List.mem_map_of_mem (f := reportKeyText)
      (List.mem_map_of_mem (f := fun task : EmbeddingTaskV2 => task.taskId) hother)
    have hpath : ∀ path ∈ [task.resultPath, task.receiptPath], path ∈ outputPaths tasks :=
      fun path hpath => List.mem_flatMap.mpr ⟨task, htask, hpath⟩
    exact ⟨hapart _ (List.mem_map_of_mem (hpath _ (by simp))) _ hkey,
      hapart _ (List.mem_map_of_mem (hpath _ (by simp))) _ hkey⟩
  · intro hapart
    refine ⟨hpathsNodup, hreportsNodup, ?_⟩
    intro path hpathText key hkey
    obtain ⟨path, hpathMem, rfl⟩ := List.mem_map.mp hpathText
    obtain ⟨task, htask, hpath⟩ := List.mem_flatMap.mp hpathMem
    obtain ⟨id, hid, rfl⟩ := List.mem_map.mp hkey
    obtain ⟨other, hother, rfl⟩ := List.mem_map.mp hid
    obtain ⟨hresult, hreceipt⟩ := hapart task htask other hother
    simp only [List.mem_cons, List.not_mem_nil, or_false] at hpath
    rcases hpath with rfl | rfl
    · exact hresult
    · exact hreceipt

/-- The keys of the outputs that stand for tasks with distinct ids and paths are
distinct when the reports are apart. -/
theorem keys_nodup_iff {tasks : List EmbeddingTaskV2} {outputs : List RunpodExpectedTaskOutput}
    (h : List.Forall₂ ExpectedOf tasks outputs) (hids : (tasks.map (·.taskId)).Nodup)
    (hpaths : (outputPaths tasks).Nodup) :
    (outputs.flatMap RunpodExpectedTaskOutput.keys).Nodup ↔ ReportsApart tasks := by
  rw [← List.nodup_map_iff Subtype.val_injective, map_val_keys h]
  exact outputNames_nodup_iff hids hpaths

/-! ### Identifiers -/

theorem isIdentifierChar_of_isDigit {c : Char} (h : c.isDigit) : IsIdentifierChar c :=
  .inl (Text.isAlphanum_iff.mpr (.inr h))

theorem toNat_le_of_isIdentifierChar {c : Char} (h : IsIdentifierChar c) : c.toNat ≤ 127 := by
  rcases h with h | rfl | rfl | rfl
  · simp only [Text.isAlphanum_iff, Text.isUpper_iff, Text.isLower_iff, Char.isDigit,
      Bool.and_eq_true, decide_eq_true_eq, UInt32.le_iff_toNat_le] at h
    rcases h with (⟨-, h⟩ | ⟨-, h⟩) | ⟨-, h⟩ <;> exact h.trans (by decide)
  all_goals decide

/-- A text of identifier characters that is not too long. -/
theorem isIdentifier_of_chars {value : String} (hne : value.toList ≠ [])
    (hlength : value.toList.length ≤ 128) (hchars : ∀ c ∈ value.toList, IsIdentifierChar c) :
    IsIdentifier value := by
  refine ⟨fun hempty => hne (by rw [hempty]; rfl), ?_, hchars⟩
  rw [← String.ofList_toList (s := value), Text.utf8ByteSize_ofList fun c hc =>
    toNat_le_of_isIdentifierChar (hchars c hc)]
  exact hlength

theorem isIdentifier_digest (digest : Digest) : IsIdentifier digest.val := by
  obtain ⟨hlength, hhex⟩ := digest.property
  refine isIdentifier_of_chars ?_ (by omega) fun c hc => ?_
  · rw [← List.length_pos_iff]
    omega
  · rcases hhex c hc with h | ⟨h1, h2⟩
    · exact isIdentifierChar_of_isDigit h
    · have hz : c ≤ 'z' := h2.trans (by decide)
      have hlower : c.isLower := Text.isLower_iff.mpr ⟨h1, hz⟩
      exact .inl (Text.isAlphanum_iff.mpr (.inl (.inr hlower)))

theorem isIdentifier_workerId {worker : ℕ} (h : worker ≤ maxWorkers) :
    IsIdentifier (workerId worker) := by
  have hlength : (Text.zeroPadded 4 worker).toList.length ≤ 5 :=
    Text.length_zeroPadded_le (by decide) (by decide) (lt_of_le_of_lt h (by decide))
  refine isIdentifier_of_chars ?_ ?_ ?_ <;> rw [workerId, String.toList_append]
  · simp
  · rw [List.length_append]
    exact (Nat.add_le_add_left hlength _).trans (by decide)
  · intro c hc
    rcases List.mem_append.mp hc with hc | hc
    · have hprefix : ∀ c ∈ "worker-".toList, IsIdentifierChar c := by decide
      exact hprefix c hc
    · exact isIdentifierChar_of_isDigit (Text.isDigit_of_mem_zeroPadded hc)

theorem workerId_injective : Function.Injective workerId := fun m n h => by
  refine Text.zeroPadded_injective 4 (@Text.append_cancel "worker-" "" _ _ ?_)
  simpa [workerId] using h

/-! ### One assignment -/

/-- An assignment of the tasks `start, …, stop - 1` of the plan to a worker,
before it is sealed. -/
structure AssignsRange (plan : EmbeddingPlanV2) (start stop worker : ℕ)
    (assignment : RunpodWorkerAssignment) : Prop where
  worker : assignment.workerId = workerId worker
  taskStart : (assignment.taskStart : ℕ) = start
  taskEnd : (assignment.taskEnd : ℕ) = stop
  tasks : List.Forall₂ ExpectedOf (segment plan.tasks start stop) assignment.tasks
  task_tiles : Tiles (fun task : RunpodExpectedTaskOutput => (task.taskOrdinal : ℕ))
    (fun task => (task.taskOrdinal : ℕ) + 1) start assignment.tasks stop
  ordinal_tiles : Tiles (fun task : RunpodExpectedTaskOutput => (task.ordinalStart : ℕ))
    (fun task => (task.ordinalEnd : ℕ)) assignment.ordinalStart assignment.tasks
    assignment.ordinalEnd
  tokens_sum : (assignment.tasks.map fun task => (task.tokenCount : ℕ)).sum =
    assignment.tokenCount

theorem RunpodWorkerAssignment.seal_eq_ok {prims : Primitives}
    {assignment sealed : RunpodWorkerAssignment} :
    assignment.seal prims = .ok sealed ↔
      sealed = { assignment with
        componentSha256 := canonicalDigest prims (.mkObject assignment.body) } ∧
      AssignmentAccepted prims sealed := by
  simp only [RunpodWorkerAssignment.seal, componentDigest_eq, ok_bind, bind_eq_ok, exists_unit,
    validate_eq_ok, pure_eq_ok]
  constructor
  · rintro ⟨haccepted, rfl⟩
    exact ⟨rfl, haccepted⟩
  · rintro ⟨rfl, haccepted⟩
    exact ⟨haccepted, rfl⟩

section Plan

variable {prims : Primitives} {plan : EmbeddingPlanV2}

/-- The outputs expected of tasks have the ranges of these. -/
theorem tiles_outputs {tasks : List EmbeddingTaskV2} {outputs : List RunpodExpectedTaskOutput}
    {lo hi : ℕ} (h : List.Forall₂ ExpectedOf tasks outputs)
    (htiles : Tiles (fun task : EmbeddingTaskV2 => (task.ordinalStart : ℕ))
      (fun task => (task.ordinalEnd : ℕ)) lo tasks hi) :
    Tiles (fun task : RunpodExpectedTaskOutput => (task.ordinalStart : ℕ))
      (fun task => (task.ordinalEnd : ℕ)) lo outputs hi :=
  htiles.forall₂ <| h.imp fun _ _ hexpected => by
    rw [hexpected.ordinalStart, hexpected.ordinalEnd]
    exact ⟨rfl, rfl⟩

/-- Where a range starts, where it stops and its tokens are read off the outputs
expected of its tasks. -/
theorem AssignsRange.of_outputs (h : plan.validate prims = .ok ()) {start stop worker : ℕ}
    {assignment : RunpodWorkerAssignment} {first last : RunpodExpectedTaskOutput}
    (hworker : assignment.workerId = workerId worker)
    (hstart : (assignment.taskStart : ℕ) = start) (hstop : (assignment.taskEnd : ℕ) = stop)
    (htasks : List.Forall₂ ExpectedOf (segment plan.tasks start stop) assignment.tasks)
    (htiles : Tiles (fun task : RunpodExpectedTaskOutput => (task.taskOrdinal : ℕ))
      (fun task => (task.taskOrdinal : ℕ) + 1) start assignment.tasks stop)
    (hfirst : assignment.tasks.head? = some first)
    (hlast : assignment.tasks.getLast? = some last)
    (hordinalStart : assignment.ordinalStart = first.ordinalStart)
    (hordinalEnd : assignment.ordinalEnd = last.ordinalEnd)
    (htokens : (assignment.tasks.map fun task => (task.tokenCount : ℕ)).sum =
      assignment.tokenCount) : AssignsRange plan start stop worker assignment := by
  obtain ⟨lo, hi, hsegment⟩ := (EmbeddingPlanV2.tasksAccepted h).tiles.exists_segment start stop
  have hordinals := tiles_outputs htasks hsegment
  refine ⟨hworker, hstart, hstop, htasks, htiles, ?_, htokens⟩
  rw [hordinalStart, hordinalEnd, hordinals.start_eq hfirst, hordinals.stop_eq hlast]
  exact hordinals

/-- What one range of the plan becomes: its assignment, sealed, if that is
accepted. -/
theorem buildAssignment_eq_ok (h : plan.validate prims = .ok ()) {start stop worker : ℕ}
    (hlt : start < stop) (hle : stop ≤ plan.tasks.length) {assignment : RunpodWorkerAssignment} :
    buildAssignment prims plan ((start, stop), worker) = .ok assignment ↔
      AssignsRange plan start stop worker assignment ∧ AssignmentAccepted prims assignment := by
  have hlength : (segment plan.tasks start stop).length = stop - start := length_segment hle
  have hstop : start + (segment plan.tasks start stop).length = stop := by
    rw [hlength]
    omega
  simp only [buildAssignment, bind_eq_ok, orThrow_eq_ok, rowRange_eq_some, toWidth_eq_some,
    checkedSum_eq_ok, RunpodWorkerAssignment.seal_eq_ok]
  constructor
  · rintro ⟨_, ⟨-, rfl⟩, tasks, htasks, taskStart, htaskStart, taskEnd, htaskEnd, first, hfirst,
      last, hlast, _, ⟨-, rfl⟩, tokenCount, htokens, rfl, haccepted⟩
    obtain ⟨hexpected, htiles⟩ := expectedTaskOutputs_eq_ok.mp htasks
    rw [hstop] at htiles
    exact ⟨.of_outputs h rfl htaskStart htaskEnd hexpected htiles hfirst hlast rfl rfl
      htokens.symm, haccepted⟩
  · rintro ⟨hrange, haccepted⟩
    have htasks := expectedTaskOutputs_eq_ok.mpr
      ⟨hrange.tasks, hstop.symm ▸ hrange.task_tiles⟩
    have hne : assignment.tasks ≠ [] := by
      rw [← List.length_pos_iff, ← hrange.tasks.length_eq, hlength]
      omega
    have hfirst := List.head?_eq_some_head hne
    have hlast := List.getLast?_eq_some_getLast hne
    refine ⟨_, ⟨⟨hlt.le, hle⟩, rfl⟩, assignment.tasks, htasks, assignment.taskStart,
      hrange.taskStart, assignment.taskEnd, hrange.taskEnd, _, hfirst, _, hlast, _,
      ⟨?_, rfl⟩, assignment.tokenCount, hrange.tokens_sum.symm, ?_, haccepted⟩
    · rw [hrange.tokens_sum]
      exact assignment.tokenCount.isLt
    · -- every field of the assignment is determined
      have hordinalStart := Fin.ext (hrange.ordinal_tiles.start_eq hfirst)
      have hordinalEnd := Fin.ext (hrange.ordinal_tiles.stop_eq hlast)
      have hdigest := congrArg (fun digest => { assignment with componentSha256 := digest })
        haccepted.digest
      rw [hordinalStart, hordinalEnd, ← hrange.worker]
      exact hdigest

/-- A task of an accepted plan passes the checks of an assigned task. -/
theorem assignedTaskAccepted (h : plan.validate prims = .ok ()) {task : EmbeddingTaskV2}
    (htask : task ∈ plan.tasks) {expected : RunpodExpectedTaskOutput}
    (hexpected : ExpectedOf task expected) : AssignedTaskAccepted expected := by
  have haccepted := (EmbeddingPlanV2.tasksAccepted h).accepted task htask
  have htokens : 0 < (task.tokenCount : ℕ) := by
    have hrows := haccepted.rows_le_tokens
    have hlt := haccepted.start_lt_end
    unfold EmbeddingTaskV2.rowCount at hrows
    omega
  constructor
  · rw [hexpected.taskId, haccepted.id]
    exact isIdentifier_digest _
  · rw [hexpected.ordinalStart]
    exact haccepted.start_safe
  · rw [hexpected.ordinalEnd]
    exact haccepted.end_safe
  · rw [hexpected.tokenCount]
    exact haccepted.tokens_safe
  · rw [hexpected.ordinalStart, hexpected.ordinalEnd]
    exact haccepted.start_lt_end
  · rw [hexpected.tokenCount]
    exact htokens

/-- The tokens of an accepted plan are a safe integer. -/
theorem sum_tokenCounts_le (h : plan.validate prims = .ok ()) :
    (tokenCounts plan.tasks).sum ≤ maxSafeJsonInteger := by
  obtain ⟨-, -, -, -, -, -, -, -, -, hcounts, -⟩ := EmbeddingPlanV2.validate_eq_ok.mp h
  rw [tokenCounts, hcounts.total]
  exact hcounts.total_safe

/-- An accepted plan has at most as many tasks as documents. -/
theorem length_tasks_le (h : plan.validate prims = .ok ()) :
    plan.tasks.length ≤ plan.documentCount := by
  have htiles := (EmbeddingPlanV2.tasksAccepted h).tiles
  rw [← Nat.sub_zero (plan.documentCount : ℕ), ← htiles.sum_length]
  -- every task has a document
  have hones : (plan.tasks.map fun _ => 1).sum = plan.tasks.length := by simp
  rw [← hones]
  refine List.sum_le_sum fun task htask => ?_
  have hlt := (htiles.bounds htask).2.1
  omega

/-- The tokens of an assignment are those of its range. -/
theorem AssignsRange.tokens_eq {start stop worker : ℕ} {assignment : RunpodWorkerAssignment}
    (hrange : AssignsRange plan start stop worker assignment) :
    (assignment.tokenCount : ℕ) = (segment (tokenCounts plan.tasks) start stop).sum := by
  have hcounts : assignment.tasks.map (fun task => (task.tokenCount : ℕ)) =
      (segment plan.tasks start stop).map fun task => (task.tokenCount : ℕ) :=
    map_eq_of_forall₂ (fun _ _ hexpected => congrArg Fin.val hexpected.tokenCount) hrange.tasks
  rw [← hrange.tokens_sum, hcounts, map_segment, tokenCounts]

/-- **Acceptance of one assignment.** The assignment of a range passes its checks
when it carries its digest and the reports of the range are apart. -/
theorem AssignsRange.accepted_iff (h : plan.validate prims = .ok ()) {start stop worker : ℕ}
    (hlt : start < stop) (hle : stop ≤ plan.tasks.length) (hworker : worker ≤ maxWorkers)
    {assignment : RunpodWorkerAssignment}
    (hrange : AssignsRange plan start stop worker assignment) :
    AssignmentAccepted prims assignment ↔
      assignment.componentSha256 = canonicalDigest prims (.mkObject assignment.body) ∧
        ReportsApart (segment plan.tasks start stop) := by
  have hplan := EmbeddingPlanV2.tasksAccepted h
  have hsub := segment_sublist plan.tasks start stop
  have hids := hplan.ids_nodup.sublist (hsub.map (·.taskId))
  have hpaths : (outputPaths (segment plan.tasks start stop)).Nodup :=
    hplan.paths_nodup.sublist (hsub.flatMap _)
  have hkeys := keys_nodup_iff hrange.tasks hids hpaths
  constructor
  · intro haccepted
    exact ⟨haccepted.digest, hkeys.mp haccepted.keys_nodup⟩
  · rintro ⟨hdigest, hapart⟩
    have htasks : ∀ expected ∈ assignment.tasks, AssignedTaskAccepted expected := by
      intro expected hmem
      obtain ⟨task, htask, hexpected⟩ := exists_left_of_mem hrange.tasks hmem
      exact assignedTaskAccepted h (hsub.subset htask) hexpected
    have hne : assignment.tasks ≠ [] := by
      rw [← List.length_pos_iff, ← hrange.tasks.length_eq, length_segment hle]
      omega
    -- the ends of the range are those of its first and of its last task
    have hfirst := htasks _ (List.head_mem hne)
    have hlast := htasks _ (List.getLast_mem hne)
    have hstartEq := hrange.ordinal_tiles.start_eq (List.head?_eq_some_head hne)
    have hendEq := hrange.ordinal_tiles.stop_eq (List.getLast?_eq_some_getLast hne)
    have htokens : (assignment.tokenCount : ℕ) ≤ maxSafeJsonInteger := by
      rw [hrange.tokens_eq]
      exact (sum_segment_le _ start stop).trans (sum_tokenCounts_le h)
    have hpositive : 0 < (assignment.tokenCount : ℕ) := by
      rw [← hrange.tokens_sum]
      exact List.sum_pos _ (by simpa using fun x hx => (htasks x hx).tokens_pos) (by simpa using hne)
    exact {
      worker := hrange.worker ▸ isIdentifier_workerId hworker
      start_safe := hstartEq ▸ hfirst.start_safe
      end_safe := hendEq ▸ hlast.end_safe
      tokens_safe := htokens
      start_lt_end := by rw [hrange.taskStart, hrange.taskEnd]; exact hlt
      tokens_pos := hpositive
      tasks := htasks
      task_tiles := by rw [hrange.taskStart, hrange.taskEnd]; exact hrange.task_tiles
      ordinal_tiles := hrange.ordinal_tiles
      tokens_sum := hrange.tokens_sum
      ids_nodup := by
        rw [map_eq_of_forall₂ (fun _ _ hexpected => hexpected.taskId) hrange.tasks]
        exact hids
      keys_nodup := hkeys.mpr hapart
      digest := hdigest }

/-- A range has an assignment when the ordinals of its tasks fit. -/
theorem exists_assignsRange (h : plan.validate prims = .ok ()) {start stop : ℕ} (worker : ℕ)
    (hlt : start < stop) (hle : stop ≤ plan.tasks.length) (hfits : stop < 2 ^ 32) :
    ∃ assignment, AssignsRange plan start stop worker assignment ∧
      assignment.componentSha256 = canonicalDigest prims (.mkObject assignment.body) := by
  have hplan := EmbeddingPlanV2.tasksAccepted h
  have hlength : (segment plan.tasks start stop).length = stop - start := length_segment hle
  have houtputs : ∃ outputs, (segment plan.tasks start stop).zipIdx.mapM
      (expectedTaskOutput start) = .ok outputs := by
    rw [exists_mapM_eq_ok]
    rintro ⟨task, offset⟩ hentry
    have hget := List.mem_zipIdx_iff_getElem?.mp hentry
    obtain ⟨hoffset, -⟩ := List.getElem?_eq_some_iff.mp hget
    rw [hlength] at hoffset
    have haccepted := hplan.accepted task (mem_of_mem_segment (List.mem_of_getElem? hget))
    -- the id is a digest, so the report has a safe path
    have hsafe : IsSafeRelativePath (reportKeyText task.taskId) := by
      rw [haccepted.id]
      exact isSafeRelativePath_digest "reports".toList ".json" (by decide) (by decide) (by decide) _
    exact ⟨⟨task.taskId, ⟨start + offset, by omega⟩, task.ordinalStart, task.ordinalEnd,
      task.tokenCount, task.resultPath, task.receiptPath, ⟨_, hsafe⟩⟩,
      expectedTaskOutput_eq_ok.mpr ⟨⟨rfl, rfl, rfl, rfl, rfl, rfl, rfl⟩, rfl⟩⟩
  obtain ⟨outputs, houtputs⟩ := houtputs
  obtain ⟨hexpected, htiles⟩ := expectedTaskOutputs_eq_ok.mp houtputs
  rw [hlength, Nat.add_sub_cancel' hlt.le] at htiles
  have hne : outputs ≠ [] := by
    rw [← List.length_pos_iff, ← hexpected.length_eq, hlength]
    omega
  have htokens : (outputs.map fun task => (task.tokenCount : ℕ)).sum < 2 ^ 64 := by
    have hcounts : outputs.map (fun task => (task.tokenCount : ℕ)) =
        (segment plan.tasks start stop).map fun task => (task.tokenCount : ℕ) :=
      map_eq_of_forall₂ (fun _ _ hexpected => congrArg Fin.val hexpected.tokenCount) hexpected
    have hle := (sum_segment_le (tokenCounts plan.tasks) start stop).trans (sum_tokenCounts_le h)
    rw [tokenCounts, ← map_segment, ← hcounts] at hle
    unfold maxSafeJsonInteger at hle
    omega
  let draft : RunpodWorkerAssignment :=
    ⟨unsealed prims, workerId worker, ⟨start, by omega⟩, ⟨stop, hfits⟩,
      (outputs.head hne).ordinalStart, (outputs.getLast hne).ordinalEnd, ⟨_, htokens⟩, outputs⟩
  refine ⟨{ draft with componentSha256 := canonicalDigest prims (.mkObject draft.body) }, ?_, rfl⟩
  exact .of_outputs h rfl rfl rfl hexpected htiles (List.head?_eq_some_head hne)
    (List.getLast?_eq_some_getLast hne) rfl rfl rfl

/-- When the builder makes an assignment of a range. -/
theorem exists_buildAssignment_iff (h : plan.validate prims = .ok ()) {start stop worker : ℕ}
    (hlt : start < stop) (hle : stop ≤ plan.tasks.length) (hworker : worker ≤ maxWorkers) :
    (∃ assignment, buildAssignment prims plan ((start, stop), worker) = .ok assignment) ↔
      stop < 2 ^ 32 ∧ ReportsApart (segment plan.tasks start stop) := by
  simp only [buildAssignment_eq_ok h hlt hle]
  constructor
  · rintro ⟨assignment, hrange, haccepted⟩
    refine ⟨?_, ((hrange.accepted_iff h hlt hle hworker).mp haccepted).2⟩
    rw [← hrange.taskEnd]
    exact assignment.taskEnd.isLt
  · rintro ⟨hfits, hapart⟩
    obtain ⟨assignment, hrange, hdigest⟩ := exists_assignsRange h worker hlt hle hfits
    exact ⟨assignment, hrange, (hrange.accepted_iff h hlt hle hworker).mpr ⟨hdigest, hapart⟩⟩

/-! ### All assignments -/

/-- The ranges between the boundaries tile the tasks. -/
theorem Balanced.tiles {tokens boundaries : List ℕ} {w : ℕ} (h : Balanced tokens w boundaries) :
    Tiles Prod.fst Prod.snd 0 (boundaries.zip boundaries.tail) tokens.length := by
  cases boundaries with
  | nil => exact absurd h.length (by simp)
  | cons b bs =>
    obtain rfl : b = 0 := by simpa using h.first
    have hlast : (0 :: bs).getLast (List.cons_ne_nil _ _) = tokens.length := by
      have hget := h.last
      rw [List.getLast_eq_getElem]
      have hindex : (0 :: bs).length - 1 = w := by
        rw [h.length, Nat.add_sub_cancel]
      simp only [hindex]
      exact (List.getElem?_eq_some_iff.mp hget).2
    have htiles := tiles_neighbours h.increasing
    rwa [hlast] at htiles

section Boundaries

variable {w : ℕ} {boundaries : List ℕ}

/-- A range between two boundaries with its worker: it is not empty, lies in the
plan, and the worker is one of the `w`. -/
theorem Balanced.entry_bounds (h : Balanced (tokenCounts plan.tasks) w boundaries)
    {entry : (ℕ × ℕ) × ℕ} (hentry : entry ∈ (boundaries.zip boundaries.tail).zipIdx) :
    entry.1.1 < entry.1.2 ∧ entry.1.2 ≤ plan.tasks.length ∧ entry.2 < w := by
  have hget := List.mem_zipIdx_iff_getElem?.mp hentry
  have hbounds := h.tiles.bounds (List.mem_of_getElem? hget)
  have hlength : (tokenCounts plan.tasks).length = plan.tasks.length := List.length_map ..
  obtain ⟨hindex, -⟩ := List.getElem?_eq_some_iff.mp hget
  rw [List.length_zip, List.length_tail, h.length] at hindex
  exact ⟨hbounds.2.1, hlength ▸ hbounds.2.2, by omega⟩

/-- **When the builder makes the assignments.** It does when the ordinals of the
tasks fit and, in every range, the reports are apart. -/
theorem exists_buildAssignments_iff (h : plan.validate prims = .ok ())
    (hbalanced : Balanced (tokenCounts plan.tasks) w boundaries) (hpos : 0 < w)
    (hmax : w ≤ maxWorkers) :
    (∃ assignments, buildAssignments prims plan boundaries = .ok assignments) ↔
      plan.tasks.length < 2 ^ 32 ∧ ∀ range ∈ boundaries.zip boundaries.tail,
        ReportsApart (segment plan.tasks range.1 range.2) := by
  have hone : ∀ entry ∈ (boundaries.zip boundaries.tail).zipIdx,
      ((∃ assignment, buildAssignment prims plan entry = .ok assignment) ↔
        entry.1.2 < 2 ^ 32 ∧ ReportsApart (segment plan.tasks entry.1.1 entry.1.2)) := by
    rintro ⟨⟨start, stop⟩, worker⟩ hentry
    obtain ⟨hlt, hle, hworker⟩ := hbalanced.entry_bounds hentry
    exact exists_buildAssignment_iff h hlt hle (hworker.le.trans hmax)
  have hlength : (tokenCounts plan.tasks).length = plan.tasks.length := List.length_map ..
  rw [buildAssignments, exists_mapM_eq_ok]
  constructor
  · intro hall
    have hranges : ∀ range ∈ boundaries.zip boundaries.tail,
        range.2 < 2 ^ 32 ∧ ReportsApart (segment plan.tasks range.1 range.2) := by
      intro range hrange
      obtain ⟨worker, hworker⟩ := List.mem_iff_getElem?.mp hrange
      have hentry : (range, worker) ∈ (boundaries.zip boundaries.tail).zipIdx :=
        List.mem_zipIdx_iff_getElem?.mpr hworker
      exact (hone _ hentry).mp (hall _ hentry)
    refine ⟨?_, fun range hrange => (hranges range hrange).2⟩
    -- the last range stops where the plan does
    have hne : boundaries.zip boundaries.tail ≠ [] := by
      rw [← List.length_pos_iff, List.length_zip, List.length_tail, hbalanced.length]
      omega
    rw [← hlength, ← hbalanced.tiles.stop_eq (List.getLast?_eq_some_getLast hne)]
    exact (hranges _ (List.getLast_mem hne)).1
  · rintro ⟨hfits, hapart⟩ entry hentry
    obtain ⟨-, hle, -⟩ := hbalanced.entry_bounds hentry
    have hrange := List.mem_of_getElem? (List.mem_zipIdx_iff_getElem?.mp hentry)
    exact (hone entry hentry).mpr ⟨hle.trans_lt hfits, hapart _ hrange⟩

/-- What the builder makes: each range has its assignment, and it is accepted. -/
theorem buildAssignments_forall₂ (h : plan.validate prims = .ok ())
    (hbalanced : Balanced (tokenCounts plan.tasks) w boundaries)
    {assignments : List RunpodWorkerAssignment}
    (hbuild : buildAssignments prims plan boundaries = .ok assignments) :
    List.Forall₂ (fun entry assignment =>
        AssignsRange plan entry.1.1 entry.1.2 entry.2 assignment ∧
          AssignmentAccepted prims assignment)
      (boundaries.zip boundaries.tail).zipIdx assignments := by
  have hrun := mapM_eq_ok.mp hbuild
  have hboth := (List.forall₂_and_left _ _).mpr
    ⟨fun _ hentry => hbalanced.entry_bounds hentry, hrun⟩
  refine hboth.imp ?_
  rintro ⟨⟨start, stop⟩, worker⟩ assignment ⟨⟨hlt, hle, -⟩, hassignment⟩
  exact (buildAssignment_eq_ok h hlt hle).mp hassignment

/-- The assignment of a range is bound to the tasks of the range, by induction on
its tasks. -/
theorem exists_bound {tasks : List RunpodExpectedTaskOutput} {lo hi : ℕ}
    (htiles : Tiles (fun task : RunpodExpectedTaskOutput => (task.taskOrdinal : ℕ))
      (fun task => (task.taskOrdinal : ℕ) + 1) lo tasks hi)
    (h : List.Forall₂ ExpectedOf (segment plan.tasks lo hi) tasks) :
    ∀ expected ∈ tasks, ∃ task,
      plan.tasks[(expected.taskOrdinal : ℕ)]? = some task ∧ ExpectedOf task expected := by
  induction tasks generalizing lo with
  | nil => simp
  | cons expected tasks ih =>
    obtain ⟨rfl, -, hrest⟩ := htiles
    obtain ⟨task, others, hexpected, hothers, hsegment⟩ := List.forall₂_cons_right_iff.mp h
    have hlt : (expected.taskOrdinal : ℕ) < hi := hrest.le
    have hget : plan.tasks[(expected.taskOrdinal : ℕ)]? = some task := by
      have hfirst := @getElem?_segment _ plan.tasks expected.taskOrdinal hi 0 (by omega)
      rw [hsegment] at hfirst
      exact hfirst.symm
    rw [segment_cons hget hlt, List.cons.injEq] at hsegment
    rw [List.forall_mem_cons]
    exact ⟨⟨task, hget, hexpected⟩, ih hrest (hsegment.2 ▸ hothers)⟩

/-- **The assignments pass.** Whatever the builder makes of balanced boundaries is
accepted as the assignments of the plan. -/
theorem buildAssignments_accepted (h : plan.validate prims = .ok ())
    (hbalanced : Balanced (tokenCounts plan.tasks) w boundaries)
    {assignments : List RunpodWorkerAssignment}
    (hbuild : buildAssignments prims plan boundaries = .ok assignments) :
    AssignmentsAccepted prims plan assignments := by
  have hrel := buildAssignments_forall₂ h hbalanced hbuild
  have hplan := EmbeddingPlanV2.tasksAccepted h
  have hlength : (tokenCounts plan.tasks).length = plan.tasks.length := List.length_map ..
  have hof : ∀ assignment ∈ assignments, ∃ worker, AssignsRange plan assignment.taskStart
      assignment.taskEnd worker assignment ∧ AssignmentAccepted prims assignment := by
    intro assignment hmem
    obtain ⟨entry, -, hrange, haccepted⟩ := exists_left_of_mem hrel hmem
    refine ⟨entry.2, ?_, haccepted⟩
    rw [hrange.taskStart, hrange.taskEnd]
    exact hrange
  have htasks : Tiles (fun assignment : RunpodWorkerAssignment => (assignment.taskStart : ℕ))
      (fun assignment => (assignment.taskEnd : ℕ)) 0 assignments plan.tasks.length := by
    have hentries : Tiles (fun entry : (ℕ × ℕ) × ℕ => entry.1.1) (fun entry => entry.1.2) 0
        (boundaries.zip boundaries.tail).zipIdx plan.tasks.length := by
      have htiles := hbalanced.tiles
      rw [← List.zipIdx_map_fst 0 (boundaries.zip boundaries.tail), tiles_map, hlength] at htiles
      exact htiles
    exact hentries.forall₂ (hrel.imp fun _ _ hrange => ⟨hrange.1.taskStart, hrange.1.taskEnd⟩)
  refine ⟨fun assignment hmem => (hof assignment hmem).elim fun _ hrange => hrange.2, ?_, htasks,
    ?_, ?_, ?_⟩
  · intro assignment hmem
    obtain ⟨worker, hrange, -⟩ := hof assignment hmem
    exact exists_bound hrange.task_tiles hrange.tasks
  · -- strung together, the outputs have the ranges of the tasks of the plan
    have hall : List.Forall₂ ExpectedOf plan.tasks (assignments.flatMap (·.tasks)) := by
      rw [← segment_zero_length plan.tasks]
      refine htasks.forall₂_flatMap plan.tasks fun assignment hmem => ?_
      obtain ⟨worker, hrange, -⟩ := hof assignment hmem
      exact hrange.tasks
    refine (tiles_outputs hall hplan.tiles).of_flatMap fun assignment hmem => ?_
    obtain ⟨worker, hrange, haccepted⟩ := hof assignment hmem
    have hlt := haccepted.ordinalStart_lt
    refine ⟨?_, hlt, hrange.ordinal_tiles⟩
    rw [ne_eq, hrange.ordinal_tiles.eq_nil_iff]
    exact hlt.ne
  · have hworkers : assignments.map (·.workerId) =
        (boundaries.zip boundaries.tail).zipIdx.map fun entry => workerId entry.2 :=
      map_eq_of_forall₂ (fun _ _ hrange => hrange.1.worker) hrel
    have hcomp : (boundaries.zip boundaries.tail).zipIdx.map (fun entry => workerId entry.2) =
        ((boundaries.zip boundaries.tail).zipIdx.map Prod.snd).map workerId := by
      rw [List.map_map]
      rfl
    rw [hworkers, hcomp, List.zipIdx_map_snd]
    exact List.Nodup.map workerId_injective List.nodup_range'
  · obtain ⟨-, -, -, -, -, -, -, -, -, hcounts, -⟩ := EmbeddingPlanV2.validate_eq_ok.mp h
    have hsegments : assignments.map (fun assignment => (assignment.tokenCount : ℕ)) =
        assignments.map fun assignment =>
          (segment (tokenCounts plan.tasks) assignment.taskStart assignment.taskEnd).sum := by
      refine List.map_congr_left fun assignment hmem => ?_
      obtain ⟨worker, hrange, -⟩ := hof assignment hmem
      exact hrange.tokens_eq
    rw [hsegments, htasks.sum_segment, ← hlength, segment_zero_length, tokenCounts, hcounts.total]

end Boundaries

/-! ### The builder -/

/-- **Balanced assignments.** For every valid plan and every admissible number of
workers the boundaries exist and are balanced. The builder makes assignments of
them exactly when the ordinals fit 32 bits and no report of a range is named like
another output of it; and then the assignments pass: they partition the tasks,
the documents and the tokens of the plan. -/
theorem tokenBalancedBoundaries_assignments (h : plan.validate prims = .ok ()) {workers : U32}
    (hpos : 1 ≤ (workers : ℕ)) (hmax : (workers : ℕ) ≤ min plan.tasks.length maxWorkers) :
    ∃ boundaries, tokenBalancedBoundaries plan workers = .ok boundaries ∧
      Balanced (tokenCounts plan.tasks) workers boundaries ∧
      ((∃ assignments, buildAssignments prims plan boundaries = .ok assignments) ↔
        plan.tasks.length < 2 ^ 32 ∧ ∀ range ∈ boundaries.zip boundaries.tail,
          ReportsApart (segment plan.tasks range.1 range.2)) ∧
      ∀ assignments, buildAssignments prims plan boundaries = .ok assignments →
        validateAssignments prims assignments plan = .ok () ∧
        List.Forall₂ ExpectedOf plan.tasks (assignments.flatMap (·.tasks)) ∧
        Tiles (fun assignment : RunpodWorkerAssignment => (assignment.ordinalStart : ℕ))
          (fun assignment => (assignment.ordinalEnd : ℕ)) 0 assignments plan.documentCount ∧
        (assignments.map fun assignment => (assignment.tokenCount : ℕ)).sum =
          plan.tokenStatistics.totalTokens := by
  obtain ⟨hle, hworkers⟩ := le_min_iff.mp hmax
  have hlength : plan.tasks.length < 2 ^ 64 :=
    (length_tasks_le h).trans_lt plan.documentCount.isLt
  obtain ⟨boundaries, hrun, hbalanced⟩ :=
    tokenBalancedBoundaries_ok (sum_tokenCounts_le h) hlength hpos hworkers hle
  refine ⟨boundaries, hrun, hbalanced, exists_buildAssignments_iff h hbalanced hpos hworkers, ?_⟩
  intro assignments hbuild
  have haccepted := buildAssignments_accepted h hbalanced hbuild
  exact ⟨validateAssignments_eq_ok.mpr haccepted, haccepted.tasks_eq, haccepted.ordinal_tiles,
    haccepted.tokens_sum⟩

/-- The names of the outputs of the sample plan are too short to be reports. -/
theorem reportsApart_samplePlan (start stop : ℕ) :
    ReportsApart (segment samplePlan.tasks start stop) := by
  have hshort : ∀ task ∈ samplePlan.tasks, task.resultPath.val.toList.length = 2 ∧
      task.receiptPath.val.toList.length = 2 := by decide +kernel
  have hlong : ∀ id : String, (reportKeyText id).toList.length ≠ 2 := by
    intro id
    rw [reportKeyText, String.toList_append, List.length_append]
    have hsuffix : ".json".toList.length = 5 := by decide
    omega
  intro task htask other _
  obtain ⟨hresult, hreceipt⟩ := hshort task (mem_of_mem_segment htask)
  refine ⟨fun heq => hlong other.taskId ?_, fun heq => hlong other.taskId ?_⟩
  · rw [← heq]
    exact hresult
  · rw [← heq]
    exact hreceipt

/-- The sample plan on two workers has assignments, and they pass. -/
theorem samplePlan_assignments :
    ∃ boundaries assignments, tokenBalancedBoundaries samplePlan 2 = .ok boundaries ∧
      Balanced (tokenCounts samplePlan.tasks) 2 boundaries ∧
      buildAssignments samplePrimitives samplePlan boundaries = .ok assignments ∧
      validateAssignments samplePrimitives assignments samplePlan = .ok () := by
  obtain ⟨boundaries, hrun, hbalanced, hbuilds, haccepts⟩ :=
    @tokenBalancedBoundaries_assignments samplePrimitives samplePlan samplePlan_validate 2
      (by decide) (by decide)
  obtain ⟨assignments, hbuild⟩ :=
    hbuilds.mpr ⟨by decide, fun range _ => reportsApart_samplePlan range.1 range.2⟩
  exact ⟨boundaries, assignments, hrun, hbalanced, hbuild, (haccepts assignments hbuild).1⟩

/-- The assignments of a bundle are those made of its balanced boundaries. -/
theorem buildRunpodEmbeddingBundle_assignments {prepared : PreparedCorpusManifest}
    {artifacts : RunpodBundleArtifacts} {execution : RunpodExecutionIdentity} {workers : U32}
    {bundle : RunpodEmbeddingBundle}
    (hbuild : buildRunpodEmbeddingBundle prims prepared plan artifacts execution workers =
      .ok bundle) :
    ∃ boundaries, tokenBalancedBoundaries plan workers = .ok boundaries ∧
      Balanced (tokenCounts plan.tasks) workers boundaries ∧
      buildAssignments prims plan boundaries = .ok bundle.assignments ∧
      bundle.validateAgainst prims prepared plan = .ok () := by
  simp only [buildRunpodEmbeddingBundle, bind_eq_ok, exists_unit, throwIf_eq_ok, not_or, not_lt,
    RunpodEmbeddingBundle.seal, RunpodEmbeddingBundle.componentDigest_eq, ok_bind, pure_eq_ok,
    exists_eq_left'] at hbuild
  obtain ⟨-, hbinding, ⟨hpos, hmax, hle⟩, boundaries, hrun, assignments, hassignments, _, -, _, -,
    _, -, _, -, hvalid, rfl⟩ := hbuild
  have hplan : plan.validate prims = .ok () := by
    simp only [EmbeddingPlanV2.validateManifestBinding, bind_eq_ok, exists_unit] at hbinding
    exact hbinding.1
  have hlength : plan.tasks.length < 2 ^ 64 :=
    (length_tasks_le hplan).trans_lt plan.documentCount.isLt
  obtain ⟨balanced, hrun', hbalanced⟩ := tokenBalancedBoundaries_ok (sum_tokenCounts_le hplan)
    hlength (Nat.pos_of_ne_zero hpos) hmax hle
  obtain rfl : boundaries = balanced := Except.ok.inj (hrun.symm.trans hrun')
  exact ⟨boundaries, hrun, hbalanced, hassignments, hvalid⟩

end Plan

/-! ### A plan that takes the names of reports -/

section Rename

variable (prims : Primitives) (plan : EmbeddingPlanV2)

/-- The task with its id filled in and its results where its report belongs. -/
def withReportPath (task : EmbeddingTaskV2) : EmbeddingTaskV2 :=
  let id := task.expectedId prims plan.identityContext
  { task with
    taskId := id.val
    resultPath := ⟨reportKeyText id.val, isSafeRelativePath_digest "reports".toList ".json"
      (by decide) (by decide) (by decide) id⟩ }

/-- The plan with the results of every task where its report belongs. -/
def withReportPaths : EmbeddingPlanV2 :=
  { plan with tasks := plan.tasks.map (withReportPath prims plan) }.withDigest prims

variable {prims plan}

/-- Such a plan is as valid as the plan was, when its paths are distinct. -/
theorem withReportPaths_validate (h : plan.validate prims = .ok ())
    (hpaths : (outputPaths (withReportPaths prims plan).tasks).Nodup) :
    (withReportPaths prims plan).validate prims = .ok () := by
  obtain ⟨h1, h2, h3, h4, h5, h6, h7, h8, h9, hcounts, htasks, -⟩ :=
    EmbeddingPlanV2.validate_eq_ok.mp h
  have htasksEq : (withReportPaths prims plan).tasks =
    plan.tasks.map (withReportPath prims plan) := rfl
  refine EmbeddingPlanV2.validate_eq_ok.mpr
    ⟨h1, h2, h3, h4, h5, h6, h7, h8, h9, ?_, ⟨?_, ?_, ?_, hpaths⟩, rfl⟩
  · have htotal := hcounts.total
    have hmaximum := hcounts.maximum
    exact { hcounts with
      total := by rw [htasksEq, List.map_map]; exact htotal
      maximum := by rw [htasksEq, List.map_map]; exact hmaximum }
  · intro task htask
    obtain ⟨original, hmem, rfl⟩ := List.mem_map.mp htask
    exact { htasks.accepted original hmem with id := rfl }
  · exact tiles_map.mpr htasks.tiles
  · have hids : (withReportPaths prims plan).tasks.map (·.taskId) =
        plan.tasks.map (·.taskId) := by
      rw [htasksEq, List.map_map]
      exact List.map_congr_left fun task hmem => (htasks.accepted task hmem).id.symm
    rw [hids]
    exact htasks.ids_nodup

/-- Its reports are not apart from its results. -/
theorem not_reportsApart_withReportPaths {start stop : ℕ} (hlt : start < stop)
    (hle : stop ≤ plan.tasks.length) :
    ¬ ReportsApart (segment (withReportPaths prims plan).tasks start stop) := by
  intro hapart
  have hget : (plan.tasks.map (withReportPath prims plan))[start]? =
      some (withReportPath prims plan (plan.tasks.get ⟨start, hlt.trans_le hle⟩)) := by
    rw [List.getElem?_map, List.getElem?_eq_getElem (hlt.trans_le hle), Option.map_some]
    rfl
  have hmem := mem_segment.mpr ⟨start, le_rfl, hlt, hget⟩
  exact (hapart _ hmem _ hmem).1 rfl

end Rename

/-- Two workers for the two tasks of the sample plan, whose results take the names
of the reports. The plan is valid and its boundaries exist, but the builder makes
no assignments of them. -/
theorem withReportPaths_refused :
    (withReportPaths samplePrimitives samplePlan).validate samplePrimitives = .ok () ∧
      (withReportPaths samplePrimitives samplePlan).tasks.length = 2 ∧
      ∃ boundaries, tokenBalancedBoundaries (withReportPaths samplePrimitives samplePlan) 2 =
        .ok boundaries ∧
      ∀ assignments, buildAssignments samplePrimitives (withReportPaths samplePrimitives samplePlan)
        boundaries ≠ .ok assignments := by
  have hvalid := withReportPaths_validate samplePlan_validate (by decide +kernel)
  have hlength : (withReportPaths samplePrimitives samplePlan).tasks.length = 2 := by decide
  obtain ⟨boundaries, hrun, hbalanced⟩ := @tokenBalancedBoundaries_ok
    (withReportPaths samplePrimitives samplePlan) 2 (sum_tokenCounts_le hvalid)
    (by rw [hlength]; decide) (by decide) (by decide) (by rw [hlength]; decide)
  refine ⟨hvalid, hlength, boundaries, hrun, fun assignments hbuild => ?_⟩
  have hapart := ((exists_buildAssignments_iff hvalid hbalanced (by decide) (by decide)).mp
    ⟨assignments, hbuild⟩).2
  -- the first range has a task, and its results are where its report belongs
  have hranges : boundaries.zip boundaries.tail ≠ [] := by
    rw [← List.length_pos_iff, List.length_zip, List.length_tail, hbalanced.length]
    decide
  have hmem := List.head_mem hranges
  have hbounds := hbalanced.tiles.bounds hmem
  have hle : ((boundaries.zip boundaries.tail).head hranges).2 ≤ samplePlan.tasks.length :=
    hbounds.2.2.trans (by decide)
  exact not_reportsApart_withReportPaths hbounds.2.1 hle (hapart _ hmem)

end LivefireRag.Cloud
