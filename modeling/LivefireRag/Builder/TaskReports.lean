import LivefireRag.Embedding.Profile
import LivefireRag.Pipeline.ResultSet
import LivefireRag.Builder.Basic

/-!
# Task reports

A task of an embedding run leaves a report beside its receipt. Version 1 is written
by the local path, version 2 by every other backend. A report is checked against the
plan, its task, the profile and the receipt of the task, and, when the prepared corpus
is at hand, against the source snapshot the corpus was made from.

What the two checks share, the binding of a report to its task and receipt, is one
definition (`TaskReportBinding.differs`) over the fields the two versions have in
common.
-/

namespace LivefireRag.Builder

open Fallible Machine Pipeline

inductive ObservationStatus where
  | observed
  | partly
  | callerSupplied
  | notMeasured
  | unavailable
  deriving DecidableEq

structure LmStudioContext where
  configuredModel : String
  returnedModel : String
  deriving DecidableEq

structure TransportByteAccounting where
  requestBodyBytes : Option U64
  responseBodyBytes : Option U64
  submittedTextBytes : Option U64
  decodedVectorBytes : Option U64
  deriving DecidableEq

structure TaskArtifactSizes where
  vectorShardBytes : Option U64
  receiptBytes : Option U64
  taskReportBytes : Option U64
  deriving DecidableEq

/-- The executor's account of one task. -/
structure EmbeddingTaskReport where
  rows : U64
  attempts : U64
  retries : U64
  sentInputTextBytes : U64
  vectorBytes : U64
  shardBytes : U64
  elapsedMicros : U64
  deriving DecidableEq

/-- The fields of a report that both versions have. -/
structure TaskReportBinding where
  schemaVersion : String
  planSha256 : Digest
  sourceSnapshotSha256 : Digest
  preparedCorpusSha256 : Digest
  embeddingProfileSha256 : Digest
  tokenizerSha256 : Digest
  taskId : String
  taskIndex : ℕ
  ordinalStart : U64
  ordinalEnd : U64
  documentCount : U64
  tokenCount : U64
  receiptSha256 : Digest
  startedUnixMs : Option U64
  finishedUnixMs : Option U64
  transportBytes : TransportByteAccounting
  artifactSizes : TaskArtifactSizes
  execution : Option EmbeddingTaskReport
  deriving DecidableEq

structure BuilderEmbeddingTaskReport extends TaskReportBinding where
  lmStudio : LmStudioContext
  deriving DecidableEq

structure EmbeddingAcceleratorPolicyV2 where
  provider : String
  model : String
  architecture : String
  computeCapability : String
  count : U32
  deriving DecidableEq

structure EmbeddingExecutionIdentityV2 where
  backendKind : String
  executorImage : ComponentRef
  executorImageBuild : ComponentRef
  runtime : ComponentRef
  workerBinary : ComponentRef
  modelArtifact : ComponentRef
  embeddingProfile : ComponentRef
  returnedModel : String
  accelerator : EmbeddingAcceleratorPolicyV2
  deriving DecidableEq

structure EmbeddingBackendContextV2 where
  kind : String
  endpointKind : String
  batchSize : U64
  requestsInFlight : U64
  deriving DecidableEq

structure AcceleratorContextV2 where
  status : ObservationStatus
  provider : Option String
  model : Option String
  architecture : Option String
  computeCapability : Option String
  count : Option U32
  deriving DecidableEq

structure BuilderEmbeddingTaskReportV2 extends TaskReportBinding where
  executionIdentity : EmbeddingExecutionIdentityV2
  accelerator : AcceleratorContextV2
  backend : EmbeddingBackendContextV2
  deriving DecidableEq

inductive ValidatedEmbeddingTaskReport where
  | v1 (report : BuilderEmbeddingTaskReport)
  | v2 (report : BuilderEmbeddingTaskReportV2)
  deriving DecidableEq

/-! ### The checks -/

def taskReportSchema : String := "livefire.rag.embedding-task-run-report/1"

def taskReportSchemaV2 : String := "livefire.rag.embedding-task-run-report/2"

/-- The plan, the task and the receipt a report is checked against. -/
structure TaskBinding where
  taskIndex : ℕ
  task : EmbeddingTaskV2
  plan : EmbeddingPlanV2
  profile : Embedding.EmbeddingProfile
  receipt : VectorResultReceipt

/-- Where a report differs from its plan, task and receipt: the conditions that the
two checks list in the same words. -/
def TaskReportBinding.differs (report : TaskReportBinding) (binding : TaskBinding) : Bool :=
  report.planSha256 ≠ binding.plan.componentSha256 ∨
  report.preparedCorpusSha256 ≠ binding.plan.preparedCorpusSha256 ∨
  report.embeddingProfileSha256 ≠ binding.plan.embeddingProfile.component.sha256 ∨
  report.tokenizerSha256 ≠ binding.plan.executableTokenizer.artifact.sha256 ∨
  report.taskId ≠ binding.task.taskId ∨
  report.taskIndex ≠ binding.taskIndex ∨
  report.ordinalStart ≠ binding.task.ordinalStart ∨
  report.ordinalEnd ≠ binding.task.ordinalEnd ∨
  (report.documentCount : ℕ) ≠ binding.task.rowCount ∨
  report.tokenCount ≠ binding.task.tokenCount ∨
  report.receiptSha256 ≠ binding.receipt.componentSha256 ∨
  report.startedUnixMs.isSome ≠ report.finishedUnixMs.isSome ∨
  (∃ start ∈ report.startedUnixMs, ∃ finish ∈ report.finishedUnixMs, start > finish) ∨
  report.execution.isSome ≠ report.startedUnixMs.isSome ∨
  report.transportBytes.requestBodyBytes.isSome ∨
  report.transportBytes.responseBodyBytes.isSome ∨
  report.execution.map (·.sentInputTextBytes) ≠ report.transportBytes.submittedTextBytes ∨
  report.execution.map (·.vectorBytes) ≠ report.transportBytes.decodedVectorBytes ∨
  report.artifactSizes.vectorShardBytes ≠ some binding.receipt.vector.bytes ∨
  report.artifactSizes.receiptBytes.isNone ∨
  report.artifactSizes.taskReportBytes.isSome ∨
  (∃ execution ∈ report.execution,
    (execution.rows : ℕ) ≠ binding.task.rowCount ∨
    execution.shardBytes ≠ binding.receipt.vector.bytes ∨
    execution.attempts ≠ binding.receipt.executor.requests ∨
    execution.retries ≠ binding.receipt.executor.retries)

/-- The report is about another source snapshot than the prepared corpus, when the
corpus is at hand. -/
def TaskReportBinding.otherSnapshot (report : TaskReportBinding)
    (prepared : Option PreparedCorpusManifest) : Bool :=
  ∃ corpus ∈ prepared, report.sourceSnapshotSha256 ≠ corpus.dataset.sourceSnapshot.sha256

def validateTaskReport (report : BuilderEmbeddingTaskReport) (binding : TaskBinding)
    (prepared : Option PreparedCorpusManifest) : Result Unit :=
  throwIf (report.schemaVersion ≠ taskReportSchema ∨
      report.toTaskReportBinding.differs binding ∨
      report.toTaskReportBinding.otherSnapshot prepared ∨
      report.lmStudio.configuredModel ≠ binding.profile.model ∨
      report.lmStudio.returnedModel ≠ binding.receipt.executor.returnedModel)
    (.accountingClosure "embedding task report binding differs")

/-- Where the execution identity of a version 2 report differs from what was sealed or
from what the report observed. -/
def BuilderEmbeddingTaskReportV2.identityDiffers (report : BuilderEmbeddingTaskReportV2)
    (binding : TaskBinding) : Bool :=
  let identity := report.executionIdentity
  let policy := identity.accelerator
  identity.backendKind = "" ∨ identity.backendKind ≠ report.backend.kind ∨
  identity.embeddingProfile ≠ binding.plan.embeddingProfile.component ∨
  identity.modelArtifact ≠ binding.plan.embeddingProfile.modelArtifact ∨
  identity.runtime ≠ binding.receipt.executor.runtime ∨
  identity.workerBinary ≠ binding.receipt.executor.implementation ∨
  identity.returnedModel ≠ binding.profile.model ∨
  identity.returnedModel ≠ binding.receipt.executor.returnedModel ∨
  report.accelerator.status ≠ .observed ∨
  report.accelerator.provider ≠ some policy.provider ∨
  report.accelerator.model ≠ some policy.model ∨
  report.accelerator.architecture ≠ some policy.architecture ∨
  report.accelerator.computeCapability ≠ some policy.computeCapability ∨
  report.accelerator.count ≠ some policy.count ∨
  policy.provider = "" ∨ policy.model = "" ∨ policy.architecture = "" ∨
  policy.computeCapability = "" ∨ (policy.count : ℕ) ≠ 1 ∨
  report.backend.endpointKind = "" ∨ (report.backend.batchSize : ℕ) = 0 ∨
  (report.backend.requestsInFlight : ℕ) = 0 ∨
  report.accelerator.count = some 0

def validateTaskReportV2 (report : BuilderEmbeddingTaskReportV2) (binding : TaskBinding)
    (prepared : Option PreparedCorpusManifest) : Result Unit := do
  let identity := report.executionIdentity
  forM [identity.executorImage, identity.executorImageBuild, identity.runtime,
    identity.workerBinary, identity.modelArtifact, identity.embeddingProfile]
    fun component => component.validate.mapError .pipeline
  throwIf (report.schemaVersion ≠ taskReportSchemaV2 ∨
      report.toTaskReportBinding.differs binding ∨
      report.toTaskReportBinding.otherSnapshot prepared ∨
      report.identityDiffers binding)
    (.accountingClosure "embedding task report v2 binding differs")

/-- The check of a report of either version. -/
def ValidatedEmbeddingTaskReport.validate (report : ValidatedEmbeddingTaskReport)
    (binding : TaskBinding) (prepared : Option PreparedCorpusManifest) : Result Unit :=
  match report with
  | .v1 report => validateTaskReport report binding prepared
  | .v2 report => validateTaskReportV2 report binding prepared

/-! ### What acceptance says -/

variable {binding : TaskBinding} {prepared : Option PreparedCorpusManifest}

theorem validateTaskReport_eq_ok {report : BuilderEmbeddingTaskReport} {u : Unit} :
    validateTaskReport report binding prepared = .ok u ↔
      report.schemaVersion = taskReportSchema ∧
      report.toTaskReportBinding.differs binding = false ∧
      report.toTaskReportBinding.otherSnapshot prepared = false ∧
      report.lmStudio.configuredModel = binding.profile.model ∧
      report.lmStudio.returnedModel = binding.receipt.executor.returnedModel := by
  rw [validateTaskReport, throwIf_eq_ok]
  simp only [not_or, not_not, ne_eq, Bool.not_eq_true]

theorem validateTaskReportV2_eq_ok {report : BuilderEmbeddingTaskReportV2} {u : Unit} :
    validateTaskReportV2 report binding prepared = .ok u ↔
      (∀ component ∈ [report.executionIdentity.executorImage,
        report.executionIdentity.executorImageBuild, report.executionIdentity.runtime,
        report.executionIdentity.workerBinary, report.executionIdentity.modelArtifact,
        report.executionIdentity.embeddingProfile], component.validate = .ok ()) ∧
      report.schemaVersion = taskReportSchemaV2 ∧
      report.toTaskReportBinding.differs binding = false ∧
      report.toTaskReportBinding.otherSnapshot prepared = false ∧
      report.identityDiffers binding = false := by
  rw [validateTaskReportV2, bind_eq_ok, exists_unit, throwIf_eq_ok, forM_eq_ok]
  simp only [mapError_eq_ok, not_or, not_not, ne_eq, Bool.not_eq_true]

/-- An accepted report has an interval that is ordered, if it has one. -/
theorem TaskReportBinding.start_le_finish {report : TaskReportBinding}
    (h : report.differs binding = false) {start finish : U64}
    (hstart : report.startedUnixMs = some start) (hfinish : report.finishedUnixMs = some finish) :
    start ≤ finish := by
  by_contra hlt
  rw [not_le] at hlt
  have hdiffers : report.differs binding = true := by
    simp only [TaskReportBinding.differs, decide_eq_true_eq]
    iterate 12 right
    left
    exact ⟨start, hstart, finish, hfinish, hlt⟩
  rw [hdiffers] at h
  exact Bool.noConfusion h

theorem otherSnapshot_none (report : TaskReportBinding) : report.otherSnapshot none = false := by
  simp [TaskReportBinding.otherSnapshot]

end LivefireRag.Builder
