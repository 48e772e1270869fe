import LivefireRag.Lib.JsonAccess
import LivefireRag.Builder.Recovery

/-!
# Finalization of an embedding task

Before an embedding run is finalized, every task must have its part, its receipt and its
report. The checks of one task, `validateCompleteEmbeddingTask`, read the files that the
recovery of the task inspects, in code of their own. They agree on the receipt and on the
part. The report they read in two ways: the recovery decodes it straight into version 1 and
is not told the prepared corpus, finalization reads a JSON value first, decodes it by its
schema version, and compares the source snapshot.

`inspectionAgrees_iff` says when the two are of one mind about a task, and with it when a
quarantine leaves alone what finalization would accept. The reports that part them are the
four of `ReadAlike`, every acceptable version 2 report among them.
-/

namespace LivefireRag.Builder

open Fallible Machine Crash Pipeline Embedding

/-! ### Reading a report -/

/-- The readers of a recovery, and reading a JSON value and decoding it into the two
versions of a report. -/
structure FinalizationReaders (Bytes : Type) extends ArtifactReaders Bytes where
  value : Bytes → Option Json
  fromValue : Json → Option BuilderEmbeddingTaskReport
  fromValueV2 : Json → Option BuilderEmbeddingTaskReportV2

/-- Decoding is derived from the fields of a report: what is decoded straight from the bytes
is decoded from their value too, and an object is decoded member by member. -/
structure FinalizationReaders.Derived {Bytes : Type} (readers : FinalizationReaders Bytes) :
    Prop where
  value_of_report : ∀ bytes report, readers.report bytes = some report →
    ∃ value, readers.value bytes = some value ∧ readers.fromValue value = some report
  schemaVersion : ∀ members report, readers.fromValue (.object members) = some report →
    Json.field? members "schema_version" = some (.string report.schemaVersion)

section Model

variable {Bytes : Type} (prims : Primitives) (readers : FinalizationReaders Bytes)
  (context : RecoveryContext) (prepared : PreparedCorpusManifest)

/-- The schema version a report value states, if it states one. -/
def statedSchema (value : Json) : Option String := (value.get? "schema_version").bind Json.asStr

def decodeTaskReport (value : Json) : Result ValidatedEmbeddingTaskReport :=
  if statedSchema value = some taskReportSchema then
    .v1 <$> orThrow (readers.fromValue value) .json
  else if statedSchema value = some taskReportSchemaV2 then
    .v2 <$> orThrow (readers.fromValueV2 value) .json
  else
    .error (.accountingClosure "embedding task report schema is unsupported")

def readValidatedTaskReport (bytes : Bytes) (binding : TaskBinding)
    (prepared : Option PreparedCorpusManifest) : Result ValidatedEmbeddingTaskReport := do
  let value ← orThrow (readers.value bytes) .json
  let report ← decodeTaskReport readers value
  report.validate binding prepared
  return report

/-! ### The checks of a task -/

/-- One turn of the loop: what a complete task contributes to the result set. -/
def validateCompleteEmbeddingTask (files : TaskFiles Bytes) :
    Result (ReceiptEntry × VectorResultReceipt × ValidatedEmbeddingTaskReport) := do
  let receiptBytes ← orThrow files.receipt.live .io
  let vectorBytes ← orThrow files.part.live .io
  let receipt ← orThrow (readers.receipt receiptBytes) .json
  (receipt.validateAgainstV2 prims context.plan).mapError .pipeline
  throwIf (receipt.executor.returnedModel ≠ context.profile.model ∨
      receipt.executor.runtime ≠ context.runtime)
    (.accountingClosure "embedding receipt runtime differs from profile")
  let _ ← (verifyEmbeddingTaskPart readers.shard vectorBytes
    (context.partRequest (some receipt))).mapError .embedding
  let reportBytes ← orThrow files.report.live
    (.accountingClosure "embedding task report is absent")
  let report ← readValidatedTaskReport readers reportBytes (context.binding receipt)
    (some prepared)
  return (⟨context.task.taskId, context.task.receiptPath, receipt.componentSha256⟩, receipt,
    report)

/-- The tasks of the plan, in order. -/
def validateCompleteEmbeddingTasksV2 (files : ℕ → TaskFiles Bytes) : Result
    (List ReceiptEntry × List VectorResultReceipt × List ValidatedEmbeddingTaskReport) := do
  let tasks ← context.plan.tasks.zipIdx.mapM fun (task, taskIndex) =>
    validateCompleteEmbeddingTask prims readers
      { context with task := task, taskIndex := taskIndex } prepared (files taskIndex)
  return (tasks.map (·.1), tasks.map (·.2.1), tasks.map (·.2.2))

/-! ### When the two agree -/

/-- The inspection finds the task complete when finalization accepts it, and a quarantine of
a task that finalization accepts, cut off anywhere, moves nothing. -/
structure InspectionAgrees (files : TaskFiles Bytes) : Prop where
  complete_iff : taskInspectionComplete
      (inspectEmbeddingTaskArtifacts prims readers.toArtifactReaders context files) = true ↔
    ∃ result, validateCompleteEmbeddingTask prims readers context prepared files = .ok result
  quarantine_moves_nothing : ∀ result files',
    validateCompleteEmbeddingTask prims readers context prepared files = .ok result →
    (recoverEmbeddingTask prims readers.toArtifactReaders context .quarantine).Cut files files' →
      files' = files

/-- The four reports that recovery and finalization read differently: an acceptable one of
version 2, and of version 1 one about another source snapshot, one that is not written as an
object, and one that only the value can be decoded from. -/
structure ReadAlike (receipt : VectorResultReceipt) (report : Bytes) : Prop where
  notVersion2 : ∀ value reportV2, readers.value report = some value →
    statedSchema value = some taskReportSchemaV2 → readers.fromValueV2 value = some reportV2 →
      validateTaskReportV2 reportV2 (context.binding receipt) (some prepared) ≠ .ok ()
  sameSnapshot : ∀ reportV1, readers.report report = some reportV1 →
    validateTaskReport reportV1 (context.binding receipt) none = .ok () →
      reportV1.sourceSnapshotSha256 = prepared.dataset.sourceSnapshot.sha256
  writtenAsObject : ∀ reportV1 value, readers.report report = some reportV1 →
    validateTaskReport reportV1 (context.binding receipt) none = .ok () →
      readers.value report = some value → ∃ members, value = .object members
  notOnlyFromValue : ∀ value reportV1, readers.report report = none →
    readers.value report = some value → statedSchema value = some taskReportSchema →
      readers.fromValue value = some reportV1 →
        validateTaskReport reportV1 (context.binding receipt) (some prepared) ≠ .ok ()

/-- The receipt of the files is accepted, and their part verifies with it. -/
def UsablePart (files : TaskFiles Bytes) (receipt : VectorResultReceipt) : Prop :=
  ∃ bytes part, files.receipt.live = some bytes ∧
    acceptedReceipt prims readers.toArtifactReaders context bytes = some receipt ∧
    files.part.live = some part ∧
    partVerifies readers.toArtifactReaders context (some receipt) part = true

end Model

section Agreement

variable {Bytes : Type} {prims : Primitives} {readers : FinalizationReaders Bytes}
  {context : RecoveryContext} {prepared : PreparedCorpusManifest} {files : TaskFiles Bytes}

theorem acceptedReceipt_eq_some {bytes : Bytes} {receipt : VectorResultReceipt} :
    acceptedReceipt prims readers.toArtifactReaders context bytes = some receipt ↔
      readers.receipt bytes = some receipt ∧
      receipt.validateAgainstV2 prims context.plan = .ok () ∧
      receipt.executor.returnedModel = context.profile.model ∧
      receipt.executor.runtime = context.runtime := by
  rw [acceptedReceipt, Option.filter_eq_some_iff, decide_eq_true_eq]

theorem partVerifies_iff {receipt : VectorResultReceipt} {part : Bytes} :
    partVerifies readers.toArtifactReaders context (some receipt) part = true ↔
      ∃ verified, verifyEmbeddingTaskPart readers.shard part
        (context.partRequest (some receipt)) = .ok verified :=
  isOk_iff

theorem reportValidates_iff {receipt : VectorResultReceipt} {report : Bytes} :
    reportValidates readers.toArtifactReaders context receipt report = true ↔
      ∃ reportV1, readers.report report = some reportV1 ∧
        validateTaskReport reportV1 (context.binding receipt) none = .ok () := by
  rw [reportValidates, Option.any_eq_true]
  refine exists_congr fun reportV1 => and_congr_right fun _ => isOk_iff.trans ?_
  exact ⟨fun ⟨_, h⟩ => h, fun h => ⟨(), h⟩⟩

/-- The files agree on one receipt. -/
theorem UsablePart.unique {receipt receipt' : VectorResultReceipt}
    (h : UsablePart prims readers context files receipt)
    (h' : UsablePart prims readers context files receipt') : receipt = receipt' := by
  obtain ⟨bytes, -, hbytes, haccepted, -, -⟩ := h
  obtain ⟨bytes', -, hbytes', haccepted', -, -⟩ := h'
  obtain rfl : bytes = bytes' := Option.some.inj (hbytes.symm.trans hbytes')
  exact Option.some.inj (haccepted.symm.trans haccepted')

/-- What the inspection asks of a complete task. -/
theorem taskInspectionComplete_iff :
    taskInspectionComplete
        (inspectEmbeddingTaskArtifacts prims readers.toArtifactReaders context files) = true ↔
      ∃ receipt report, UsablePart prims readers context files receipt ∧
        files.report.live = some report ∧
        reportValidates readers.toArtifactReaders context receipt report = true := by
  rw [taskInspectionComplete, decide_eq_true_eq]
  constructor
  · rintro ⟨hpart, -, hreport⟩
    obtain ⟨bytes, receipt, part, hbytes, haccepted, hlive, hverifies⟩ :=
      (inspect_part_eq_valid prims readers.toArtifactReaders context).mp hpart
    obtain ⟨bytes', receipt', report, hbytes', haccepted', hreportLive, hvalidates⟩ :=
      (inspect_report_eq_valid prims readers.toArtifactReaders context).mp hreport
    obtain rfl : bytes = bytes' := Option.some.inj (hbytes.symm.trans hbytes')
    obtain rfl : receipt = receipt' := Option.some.inj (haccepted.symm.trans haccepted')
    exact ⟨receipt, report, ⟨bytes, part, hbytes, haccepted, hlive, hverifies⟩, hreportLive,
      hvalidates⟩
  · rintro ⟨receipt, report, ⟨bytes, part, hbytes, haccepted, hlive, hverifies⟩, hreportLive,
      hvalidates⟩
    have hpart := (inspect_part_eq_valid prims readers.toArtifactReaders context).mpr
      ⟨bytes, receipt, part, hbytes, haccepted, hlive, hverifies⟩
    exact ⟨hpart, inspect_receipt_of_part prims readers.toArtifactReaders context hpart,
      (inspect_report_eq_valid prims readers.toArtifactReaders context).mpr
        ⟨bytes, receipt, report, hbytes, haccepted, hreportLive, hvalidates⟩⟩

/-- What finalization asks of a task. -/
theorem validateCompleteEmbeddingTask_iff :
    (∃ result, validateCompleteEmbeddingTask prims readers context prepared files = .ok result) ↔
      ∃ receipt report, UsablePart prims readers context files receipt ∧
        files.report.live = some report ∧
        ∃ validated, readValidatedTaskReport readers report (context.binding receipt)
          (some prepared) = .ok validated := by
  constructor
  · rintro ⟨result, hresult⟩
    unfold validateCompleteEmbeddingTask at hresult
    obtain ⟨bytes, hbytes, hresult⟩ := bind_eq_ok.mp hresult
    obtain ⟨part, hpart, hresult⟩ := bind_eq_ok.mp hresult
    obtain ⟨receipt, hreceipt, hresult⟩ := bind_eq_ok.mp hresult
    obtain ⟨_, hvalid, hresult⟩ := bind_eq_ok.mp hresult
    obtain ⟨_, hruntime, hresult⟩ := bind_eq_ok.mp hresult
    obtain ⟨verified, hverified, hresult⟩ := bind_eq_ok.mp hresult
    obtain ⟨report, hreport, hresult⟩ := bind_eq_ok.mp hresult
    obtain ⟨validated, hvalidated, -⟩ := bind_eq_ok.mp hresult
    rw [orThrow_eq_ok] at hbytes hpart hreceipt hreport
    rw [mapError_eq_ok] at hvalid hverified
    rw [throwIf_eq_ok, not_or, not_not, not_not] at hruntime
    exact ⟨receipt, report, ⟨bytes, part, hbytes,
      acceptedReceipt_eq_some.mpr ⟨hreceipt, hvalid, hruntime.1, hruntime.2⟩, hpart,
      partVerifies_iff.mpr ⟨verified, hverified⟩⟩, hreport, validated, hvalidated⟩
  · rintro ⟨receipt, report, ⟨bytes, part, hbytes, haccepted, hpart, hverifies⟩, hreport,
      validated, hvalidated⟩
    obtain ⟨hreceipt, hvalid, hmodel, hruntime⟩ := acceptedReceipt_eq_some.mp haccepted
    obtain ⟨verified, hverified⟩ := partVerifies_iff.mp hverifies
    refine ⟨(⟨context.task.taskId, context.task.receiptPath, receipt.componentSha256⟩, receipt,
      validated), ?_⟩
    unfold validateCompleteEmbeddingTask
    refine bind_eq_ok.mpr ⟨bytes, orThrow_eq_ok.mpr hbytes, ?_⟩
    refine bind_eq_ok.mpr ⟨part, orThrow_eq_ok.mpr hpart, ?_⟩
    refine bind_eq_ok.mpr ⟨receipt, orThrow_eq_ok.mpr hreceipt, ?_⟩
    refine bind_eq_ok.mpr ⟨(), mapError_eq_ok.mpr hvalid, ?_⟩
    refine bind_eq_ok.mpr ⟨(), throwIf_eq_ok.mpr ?_, ?_⟩
    · rw [not_or, not_not, not_not]
      exact ⟨hmodel, hruntime⟩
    refine bind_eq_ok.mpr ⟨verified, mapError_eq_ok.mpr hverified, ?_⟩
    refine bind_eq_ok.mpr ⟨report, orThrow_eq_ok.mpr hreport, ?_⟩
    exact bind_eq_ok.mpr ⟨validated, hvalidated, rfl⟩

/-- The two ways finalization accepts a report. -/
theorem readValidatedTaskReport_iff {bytes : Bytes} {binding : TaskBinding}
    {prepared : Option PreparedCorpusManifest} :
    (∃ validated, readValidatedTaskReport readers bytes binding prepared = .ok validated) ↔
      ∃ value, readers.value bytes = some value ∧
        ((statedSchema value = some taskReportSchema ∧ ∃ reportV1,
            readers.fromValue value = some reportV1 ∧
            validateTaskReport reportV1 binding prepared = .ok ()) ∨
          (statedSchema value = some taskReportSchemaV2 ∧ ∃ reportV2,
            readers.fromValueV2 value = some reportV2 ∧
            validateTaskReportV2 reportV2 binding prepared = .ok ())) := by
  have hschemas : taskReportSchema ≠ taskReportSchemaV2 := by decide
  constructor
  · rintro ⟨validated, hvalidated⟩
    obtain ⟨value, hvalue, hvalidated⟩ := bind_eq_ok.mp hvalidated
    obtain ⟨report, hdecode, hvalidated⟩ := bind_eq_ok.mp hvalidated
    obtain ⟨_, hvalid, -⟩ := bind_eq_ok.mp hvalidated
    refine ⟨value, orThrow_eq_ok.mp hvalue, ?_⟩
    unfold decodeTaskReport at hdecode
    split at hdecode
    · next hstated =>
      obtain ⟨reportV1, hreportV1, rfl⟩ := map_eq_ok.mp hdecode
      exact Or.inl ⟨hstated, reportV1, orThrow_eq_ok.mp hreportV1, hvalid⟩
    split at hdecode
    · next hstated =>
      obtain ⟨reportV2, hreportV2, rfl⟩ := map_eq_ok.mp hdecode
      exact Or.inr ⟨hstated, reportV2, orThrow_eq_ok.mp hreportV2, hvalid⟩
    · cases hdecode
  · rintro ⟨value, hvalue, ⟨hstated, reportV1, hreportV1, hvalid⟩ |
      ⟨hstated, reportV2, hreportV2, hvalid⟩⟩
    · have hdecode : decodeTaskReport readers value = .ok (.v1 reportV1) := by
        rw [decodeTaskReport, if_pos hstated, hreportV1]
        rfl
      refine ⟨.v1 reportV1, bind_eq_ok.mpr ⟨value, orThrow_eq_ok.mpr hvalue, ?_⟩⟩
      exact bind_eq_ok.mpr ⟨.v1 reportV1, hdecode, bind_eq_ok.mpr ⟨(), hvalid, rfl⟩⟩
    · have hother : statedSchema value ≠ some taskReportSchema := by
        rw [hstated]
        exact fun h => hschemas (Option.some.inj h).symm
      have hdecode : decodeTaskReport readers value = .ok (.v2 reportV2) := by
        rw [decodeTaskReport, if_neg hother, if_pos hstated, hreportV2]
        rfl
      refine ⟨.v2 reportV2, bind_eq_ok.mpr ⟨value, orThrow_eq_ok.mpr hvalue, ?_⟩⟩
      exact bind_eq_ok.mpr ⟨.v2 reportV2, hdecode, bind_eq_ok.mpr ⟨(), hvalid, rfl⟩⟩

theorem statedSchema_eq_some {value : Json} {text : String} :
    statedSchema value = some text ↔ ∃ members, value = .object members ∧
      Json.field? members "schema_version" = some (.string text) := by
  constructor
  · intro h
    obtain ⟨stated, hstated, htext⟩ := Option.bind_eq_some_iff.mp h
    obtain ⟨members, hmembers, hfield⟩ := Option.bind_eq_some_iff.mp hstated
    refine ⟨members, ?_, ?_⟩
    · cases value <;> cases hmembers
      rfl
    · cases stated <;> cases htext
      exact hfield
  · rintro ⟨members, rfl, hfield⟩
    show ((Json.field? members "schema_version").bind Json.asStr) = some text
    rw [hfield]
    rfl

/-- With the prepared corpus at hand, a version 1 report is checked for one thing more. -/
theorem validateTaskReport_some {report : BuilderEmbeddingTaskReport} {binding : TaskBinding} :
    validateTaskReport report binding (some prepared) = .ok () ↔
      validateTaskReport report binding none = .ok () ∧
      report.sourceSnapshotSha256 = prepared.dataset.sourceSnapshot.sha256 := by
  have hother : report.toTaskReportBinding.otherSnapshot (some prepared) = false ↔
      report.sourceSnapshotSha256 = prepared.dataset.sourceSnapshot.sha256 := by
    simp [TaskReportBinding.otherSnapshot]
  have hnone := otherSnapshot_none report.toTaskReportBinding
  rw [validateTaskReport_eq_ok, validateTaskReport_eq_ok, hother]
  constructor
  · rintro ⟨hschema, hbinding, hsnapshot, hmodels⟩
    exact ⟨⟨hschema, hbinding, hnone, hmodels⟩, hsnapshot⟩
  · rintro ⟨⟨hschema, hbinding, -, hmodels⟩, hsnapshot⟩
    exact ⟨hschema, hbinding, hsnapshot, hmodels⟩

/-- A report the recovery accepts is not of version 2 by its value. -/
theorem statedSchema_ne_of_report (hreaders : readers.Derived) {bytes : Bytes}
    {report : BuilderEmbeddingTaskReport} {binding : TaskBinding} {value : Json}
    (hreport : readers.report bytes = some report)
    (hvalid : validateTaskReport report binding none = .ok ())
    (hvalue : readers.value bytes = some value) :
    statedSchema value ≠ some taskReportSchemaV2 := by
  intro hstated
  obtain ⟨members, rfl, hfield⟩ := statedSchema_eq_some.mp hstated
  obtain ⟨value', hvalue', hdecoded⟩ := hreaders.value_of_report bytes report hreport
  obtain rfl := Option.some.inj (hvalue.symm.trans hvalue')
  have hfield' := hreaders.schemaVersion members report hdecoded
  have hschema := (validateTaskReport_eq_ok.mp hvalid).1
  have hsame : Json.string taskReportSchemaV2 = .string report.schemaVersion :=
    Option.some.inj (hfield.symm.trans hfield')
  rw [hschema] at hsame
  exact absurd (Json.string.inj hsame) (by decide)

/-- **The report.** Recovery and finalization judge it alike exactly when it is none of the
four they read differently. -/
theorem readAlike_iff (hreaders : readers.Derived) {receipt : VectorResultReceipt}
    {report : Bytes} :
    (reportValidates readers.toArtifactReaders context receipt report = true ↔
      ∃ validated, readValidatedTaskReport readers report (context.binding receipt)
        (some prepared) = .ok validated) ↔
      ReadAlike readers context prepared receipt report := by
  rw [reportValidates_iff, readValidatedTaskReport_iff]
  constructor
  · intro hagree
    refine ⟨?_, ?_, ?_, ?_⟩
    · intro value reportV2 hvalue hstated hreportV2 hvalid
      obtain ⟨reportV1, hreportV1, hvalidV1⟩ :=
        hagree.mpr ⟨value, hvalue, Or.inr ⟨hstated, reportV2, hreportV2, hvalid⟩⟩
      exact statedSchema_ne_of_report hreaders hreportV1 hvalidV1 hvalue hstated
    · intro reportV1 hreportV1 hvalid
      obtain ⟨value, hvalue, hdecoded⟩ := hreaders.value_of_report report reportV1 hreportV1
      obtain ⟨value', hvalue', hcase⟩ := hagree.mp ⟨reportV1, hreportV1, hvalid⟩
      obtain rfl := Option.some.inj (hvalue.symm.trans hvalue')
      rcases hcase with ⟨-, reportV1', hreportV1', hvalid'⟩ | ⟨hstated, -⟩
      · obtain rfl := Option.some.inj (hdecoded.symm.trans hreportV1')
        exact (validateTaskReport_some.mp hvalid').2
      · exact absurd hstated (statedSchema_ne_of_report hreaders hreportV1 hvalid hvalue)
    · intro reportV1 value hreportV1 hvalid hvalue
      obtain ⟨value', hvalue', hcase⟩ := hagree.mp ⟨reportV1, hreportV1, hvalid⟩
      obtain rfl := Option.some.inj (hvalue.symm.trans hvalue')
      rcases hcase with ⟨hstated, -⟩ | ⟨hstated, -⟩
      · obtain ⟨members, hmembers, -⟩ := statedSchema_eq_some.mp hstated
        exact ⟨members, hmembers⟩
      · obtain ⟨members, hmembers, -⟩ := statedSchema_eq_some.mp hstated
        exact ⟨members, hmembers⟩
    · intro value reportV1 hnone hvalue hstated hreportV1 hvalid
      obtain ⟨reportV1', hreportV1', -⟩ :=
        hagree.mpr ⟨value, hvalue, Or.inl ⟨hstated, reportV1, hreportV1, hvalid⟩⟩
      rw [hnone] at hreportV1'
      cases hreportV1'
  · intro halike
    constructor
    · rintro ⟨reportV1, hreportV1, hvalid⟩
      obtain ⟨value, hvalue, hdecoded⟩ := hreaders.value_of_report report reportV1 hreportV1
      obtain ⟨members, rfl⟩ := halike.writtenAsObject reportV1 value hreportV1 hvalid hvalue
      have hstated : statedSchema (.object members) = some taskReportSchema := by
        rw [← (validateTaskReport_eq_ok.mp hvalid).1]
        exact statedSchema_eq_some.mpr
          ⟨members, rfl, hreaders.schemaVersion members reportV1 hdecoded⟩
      have hsnapshot := halike.sameSnapshot reportV1 hreportV1 hvalid
      exact ⟨.object members, hvalue, Or.inl ⟨hstated, reportV1, hdecoded,
        validateTaskReport_some.mpr ⟨hvalid, hsnapshot⟩⟩⟩
    · rintro ⟨value, hvalue, ⟨hstated, reportV1, hdecoded, hvalid⟩ |
        ⟨hstated, reportV2, hdecoded, hvalid⟩⟩
      · cases hreport : readers.report report with
        | none =>
          exact absurd hvalid (halike.notOnlyFromValue value reportV1 hreport hvalue hstated
            hdecoded)
        | some reportV1' =>
          obtain ⟨value', hvalue', hdecoded'⟩ :=
            hreaders.value_of_report report reportV1' hreport
          obtain rfl := Option.some.inj (hvalue.symm.trans hvalue')
          obtain rfl := Option.some.inj (hdecoded.symm.trans hdecoded')
          exact ⟨reportV1, rfl, (validateTaskReport_some.mp hvalid).1⟩
      · exact absurd hvalid (halike.notVersion2 value reportV2 hvalue hstated hdecoded)

/-- Finalization accepts a run when it accepts every task. -/
theorem validateCompleteEmbeddingTasksV2_iff {files : ℕ → TaskFiles Bytes} :
    (∃ result, validateCompleteEmbeddingTasksV2 prims readers context prepared files =
        .ok result) ↔
      ∀ entry ∈ context.plan.tasks.zipIdx, ∃ result, validateCompleteEmbeddingTask prims readers
        { context with task := entry.1, taskIndex := entry.2 } prepared (files entry.2) =
          .ok result := by
  rw [← exists_mapM_eq_ok]
  constructor
  · rintro ⟨result, hresult⟩
    obtain ⟨tasks, htasks, -⟩ := bind_eq_ok.mp hresult
    exact ⟨tasks, htasks⟩
  · rintro ⟨tasks, htasks⟩
    exact ⟨_, bind_eq_ok.mpr ⟨tasks, htasks, rfl⟩⟩

end Agreement

/-! ### A task reported in version 2 -/

/-- The three files of the first task of the sample plan. -/
inductive SampleFile where
  | part
  | receipt
  | report

/-- The first task of the sample plan, its rows and the bytes of its vectors. -/
def sampleResult : EmbeddingTaskV2 × U64 × U64 := sampleResults.head (by decide)

def sampleFinalization : RecoveryContext where
  plan := samplePlan
  taskIndex := 0
  task := sampleResult.1
  profile := sampleProfileFile
  runtime := sampleComponent "runtime"
  partQuarantinePath := ".p0.quarantine"

/-- A report of a TEI worker. -/
def sampleReportV2 : BuilderEmbeddingTaskReportV2 where
  schemaVersion := taskReportSchemaV2
  planSha256 := samplePlan.componentSha256
  sourceSnapshotSha256 := sampleDataset.sourceSnapshot.sha256
  preparedCorpusSha256 := samplePlan.preparedCorpusSha256
  embeddingProfileSha256 := sampleProfile.component.sha256
  tokenizerSha256 := sampleTokenizer.artifact.sha256
  taskId := sampleResult.1.taskId
  taskIndex := 0
  ordinalStart := 0
  ordinalEnd := 1
  documentCount := 1
  tokenCount := 2
  receiptSha256 := (sampleReceipt sampleResult).componentSha256
  startedUnixMs := none
  finishedUnixMs := none
  transportBytes := ⟨none, none, none, none⟩
  artifactSizes := ⟨some 72, some 100, none⟩
  execution := none
  executionIdentity :=
    { backendKind := "tei"
      executorImage := sampleComponent "image"
      executorImageBuild := sampleComponent "build"
      runtime := sampleComponent "runtime"
      workerBinary := sampleComponent "executor"
      modelArtifact := sampleComponent "model"
      embeddingProfile := sampleComponent "profile"
      returnedModel := "model"
      accelerator := ⟨"provider", "gpu", "architecture", "8.9", 1⟩ }
  accelerator :=
    ⟨.observed, some "provider", some "gpu", some "architecture", some "8.9", some 1⟩
  backend := ⟨"tei", "http", 1, 1⟩

/-- The report as it is written. -/
def sampleReportV2Value : Json :=
  let report := sampleReportV2
  let identity := report.executionIdentity
  .mkObject
  [("schema_version", toJson report.schemaVersion), ("plan_sha256", toJson report.planSha256),
    ("source_snapshot_sha256", toJson report.sourceSnapshotSha256),
    ("prepared_corpus_sha256", toJson report.preparedCorpusSha256),
    ("embedding_profile_sha256", toJson report.embeddingProfileSha256),
    ("tokenizer_sha256", toJson report.tokenizerSha256), ("task_id", toJson report.taskId),
    ("task_index", toJson report.taskIndex), ("ordinal_start", toJson report.ordinalStart),
    ("ordinal_end", toJson report.ordinalEnd), ("document_count", toJson report.documentCount),
    ("token_count", toJson report.tokenCount), ("receipt_sha256", toJson report.receiptSha256),
    ("outcome", .string "reused"), ("started_unix_ms", .null), ("finished_unix_ms", .null),
    ("execution_identity", .mkObject
      [("backend_kind", toJson identity.backendKind),
        ("executor_image", toJson identity.executorImage),
        ("executor_image_build", toJson identity.executorImageBuild),
        ("runtime", toJson identity.runtime), ("worker_binary", toJson identity.workerBinary),
        ("model_artifact", toJson identity.modelArtifact),
        ("embedding_profile", toJson identity.embeddingProfile),
        ("returned_model", toJson identity.returnedModel),
        ("accelerator", .mkObject
          [("provider", .string "provider"), ("model", .string "gpu"),
            ("architecture", .string "architecture"), ("compute_capability", .string "8.9"),
            ("count", toJson 1)])]),
    ("git", .mkObject
      [("status", .string "unavailable"), ("commit", .null), ("working_tree_dirty", .null)]),
    ("machine", .mkObject
      [("status", .string "unavailable"), ("operating_system", .null),
        ("operating_system_version", .null), ("architecture", .null), ("cpu_model", .null),
        ("logical_cpu_count", .null), ("ram_bytes", .null)]),
    ("accelerator", .mkObject
      [("status", .string "observed"), ("provider", .string "provider"), ("machine_id", .null),
        ("model", .string "gpu"), ("architecture", .string "architecture"),
        ("compute_capability", .string "8.9"), ("count", toJson 1)]),
    ("backend", .mkObject
      [("status", .string "observed"), ("kind", .string "tei"), ("version", .null),
        ("endpoint_kind", .string "http"), ("batch_size", toJson 1),
        ("requests_in_flight", toJson 1), ("cold_load_micros", .null)]),
    ("transport_bytes", .mkObject
      [("status", .string "not_measured"), ("request_body_bytes", .null),
        ("response_body_bytes", .null), ("submitted_text_bytes", .null),
        ("decoded_vector_bytes", .null)]),
    ("resource_usage", .mkObject
      [("status", .string "not_measured"), ("worker_peak_rss_bytes", .null),
        ("backend_peak_rss_bytes", .null)]),
    ("artifact_sizes", .mkObject
      [("status", .string "partial"), ("vector_shard_bytes", toJson 72),
        ("receipt_bytes", toJson 100), ("task_report_bytes", .null)]),
    ("execution", .null)]

/-- The files are read back as what was written, the report by its value only: it has no
LM Studio context, which version 1 requires. -/
def sampleFinalizationReaders : FinalizationReaders SampleFile where
  shard :=
    { openExpected := fun file expected => match file with
        | .part => .ok ⟨expected.rowCount, expected.dimensions, expected.orderSha256⟩
        | _ => .error (.invalid "embedding shard")
      validateNormalization := fun _ _ => .ok ()
      size := fun _ => 72
      sha256 := fun _ => hexDigest 13 }
  receipt
    | .receipt => some (sampleReceipt sampleResult)
    | _ => none
  report _ := none
  value
    | .receipt => some (toJson (sampleReceipt sampleResult))
    | .report => some sampleReportV2Value
    | .part => none
  fromValue _ := none
  fromValueV2 value :=
    if statedSchema value = some taskReportSchemaV2 then some sampleReportV2 else none

/-- The task as an embedding run leaves it. -/
def sampleFinalizationFiles (report : Option SampleFile) : TaskFiles SampleFile :=
  ⟨⟨some .part, none⟩, ⟨some .receipt, none⟩, ⟨report, none⟩⟩

theorem sampleFinalizationReaders_fromValueV2 (value : Json) :
    sampleFinalizationReaders.fromValueV2 value =
      if statedSchema value = some taskReportSchemaV2 then some sampleReportV2 else none := rfl

theorem sampleFinalizationReaders_derived : sampleFinalizationReaders.Derived where
  value_of_report _ report h := absurd h.symm (Option.some_ne_none report)
  schemaVersion _ report h := absurd h.symm (Option.some_ne_none report)

theorem sampleFinalization_usablePart (report : Option SampleFile) :
    UsablePart samplePrimitives sampleFinalizationReaders sampleFinalization
      (sampleFinalizationFiles report) (sampleReceipt sampleResult) := by
  have haccepted : (sampleReceipt sampleResult).validateAgainstV2 samplePrimitives samplePlan =
      .ok () := sampleReceipt_accepted (List.head_mem _)
  refine ⟨.receipt, .part, rfl, acceptedReceipt_eq_some.mpr ⟨rfl, haccepted, rfl, rfl⟩, rfl, ?_⟩
  exact partVerifies_iff.mpr ⟨⟨_, 72, hexDigest 13⟩, rfl⟩

theorem sampleReportV2_valid : validateTaskReportV2 sampleReportV2
    (sampleFinalization.binding (sampleReceipt sampleResult)) (some sampleManifest) = .ok () := by
  refine validateTaskReportV2_eq_ok.mpr ⟨?_, rfl, ?_, ?_, ?_⟩
  · intro component hcomponent
    simp only [List.mem_cons, List.not_mem_nil, or_false] at hcomponent
    rcases hcomponent with rfl | rfl | rfl | rfl | rfl | rfl <;> rfl
  · have hbinding : sampleProfile.component.sha256 = samplePlan.embeddingProfile.component.sha256 ∧
        sampleTokenizer.artifact.sha256 = samplePlan.executableTokenizer.artifact.sha256 ∧
        0 = sampleResult.1.ordinalStart ∧ 1 = sampleResult.1.ordinalEnd ∧
        1 = sampleResult.1.rowCount ∧ 2 = sampleResult.1.tokenCount ∧
        72 = (sampleReceipt sampleResult).vector.bytes := ⟨rfl, rfl, rfl, rfl, rfl, rfl, rfl⟩
    simpa [TaskReportBinding.differs, sampleReportV2, sampleFinalization,
      RecoveryContext.binding] using hbinding
  · have hsnapshot : sampleDataset.sourceSnapshot.sha256 =
        sampleManifest.dataset.sourceSnapshot.sha256 := rfl
    simpa [TaskReportBinding.otherSnapshot, sampleReportV2] using hsnapshot
  · have hidentity : sampleComponent "profile" = samplePlan.embeddingProfile.component ∧
        sampleComponent "model" = samplePlan.embeddingProfile.modelArtifact ∧
        sampleComponent "runtime" = (sampleReceipt sampleResult).executor.runtime ∧
        sampleComponent "executor" = (sampleReceipt sampleResult).executor.implementation ∧
        "model" = sampleProfileFile.model ∧
        "model" = (sampleReceipt sampleResult).executor.returnedModel :=
      ⟨rfl, rfl, rfl, rfl, rfl, rfl⟩
    simpa [BuilderEmbeddingTaskReportV2.identityDiffers, sampleReportV2, sampleFinalization,
      RecoveryContext.binding] using hidentity

theorem sampleReportV2Value_schema :
    statedSchema sampleReportV2Value = some taskReportSchemaV2 := by
  decide +kernel

end LivefireRag.Builder
