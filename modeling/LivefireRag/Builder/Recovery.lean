import LivefireRag.Lib.Crash
import LivefireRag.Builder.TaskReports

/-!
# Recovery of an embedding task

A task has three artifacts, its part, its receipt and its report, each at a fixed path with
a quarantine sibling beside it. `recoverEmbeddingTask` inspects them, then leaves them as
they are, moves what cannot be used to the siblings, or moves the siblings back, and
inspects them again. Every path holds a regular file or nothing, and a move is one rename.

Two things are shown. No action, cut off anywhere, loses, duplicates or overwrites a
content (`recover_conserves`, and over any sequence of actions `recovery_conserves`). And a
quarantine that succeeds on a task without siblings leaves what `TaskFiles.quarantined`
says, from which the rest follows: what stays is valid together, a second quarantine finds
nothing to move, and restoring gives back the files as they were.
-/

namespace LivefireRag.Builder

open Fallible Machine Crash Pipeline Embedding

/-! ### Files and their readers -/

structure TaskFiles (Bytes : Type) where
  part : Slot Bytes
  receipt : Slot Bytes
  report : Slot Bytes
  deriving DecidableEq

/-- Reading a part, and the JSON readers of receipts and reports. -/
structure ArtifactReaders (Bytes : Type) where
  shard : ShardReader Bytes
  receipt : Bytes → Option VectorResultReceipt
  report : Bytes → Option BuilderEmbeddingTaskReport

/-- The task that is recovered, with what its artifacts are checked against. -/
structure RecoveryContext where
  plan : EmbeddingPlanV2
  taskIndex : ℕ
  task : EmbeddingTaskV2
  profile : EmbeddingProfile
  runtime : ComponentRef
  partQuarantinePath : String

inductive RecoveryArtifactState where
  | valid
  | orphan
  | invalid
  | quarantined
  | absent
  deriving DecidableEq

structure TaskArtifactInspection where
  part : RecoveryArtifactState
  receipt : RecoveryArtifactState
  report : RecoveryArtifactState
  receiptValue : Option VectorResultReceipt
  deriving DecidableEq

inductive RecoveryAction where
  | verify
  | quarantine
  | restore
  deriving DecidableEq

def RecoveryAction.name : RecoveryAction → String
  | .verify => "verify"
  | .quarantine => "quarantine"
  | .restore => "restore"

structure TaskRecoveryReport where
  schemaVersion : String
  action : String
  planSha256 : Digest
  embeddingProfileSha256 : Digest
  taskId : String
  taskIndex : ℕ
  complete : Bool
  part : RecoveryArtifactState
  receipt : RecoveryArtifactState
  report : RecoveryArtifactState
  changedArtifacts : List String
  modelContacted : Bool
  deriving DecidableEq

section Model

variable {Bytes : Type} (prims : Primitives) (readers : ArtifactReaders Bytes)
  (context : RecoveryContext)

def taskShardExpectationV2 (task : EmbeddingTaskV2) (dimensions : U32) :
    EmbeddingShardExpectation where
  rowCount := ⟨task.rowCount, lt_of_le_of_lt (Nat.sub_le _ _) task.ordinalEnd.isLt⟩
  dimensions := dimensions
  orderSha256 := task.embeddingInputOrderSha256

/-- What a part is verified against when a receipt is at hand, or none is. -/
def RecoveryContext.partRequest (receipt : Option VectorResultReceipt) : PartRequest where
  expected := taskShardExpectationV2 context.task context.profile.dimensions
  normalization := context.profile.normalization
  expectedSha256 := receipt.map fun receipt => receipt.vector.sha256

def RecoveryContext.binding (receipt : VectorResultReceipt) : TaskBinding :=
  ⟨context.taskIndex, context.task, context.plan, context.profile, receipt⟩

/-! ### Inspection -/

/-- The receipt in a file, if it is one of the plan, of the profile and of its runtime. -/
def acceptedReceipt (bytes : Bytes) : Option VectorResultReceipt :=
  (readers.receipt bytes).filter fun receipt =>
    receipt.validateAgainstV2 prims context.plan = .ok () ∧
      receipt.executor.returnedModel = context.profile.model ∧
      receipt.executor.runtime = context.runtime

def partVerifies (receipt : Option VectorResultReceipt) (bytes : Bytes) : Bool :=
  (verifyEmbeddingTaskPart readers.shard bytes (context.partRequest receipt)).isOk

def reportValidates (receipt : VectorResultReceipt) (bytes : Bytes) : Bool :=
  (readers.report bytes).any fun report =>
    (validateTaskReport report (context.binding receipt) none).isOk

/-- The state of a path that holds no file. -/
def Slot.missingState (slot : Slot Bytes) : RecoveryArtifactState :=
  if slot.quarantine.isSome then .quarantined else .absent

def inspectEmbeddingTaskArtifacts (files : TaskFiles Bytes) : TaskArtifactInspection :=
  let receiptValue := files.receipt.live.bind (acceptedReceipt prims readers context)
  { receipt :=
      if receiptValue.isSome then .valid
      else if files.receipt.live.isSome then .invalid
      else Slot.missingState files.receipt
    part := match files.part.live with
      | some bytes =>
        if partVerifies readers context receiptValue bytes then
          if receiptValue.isSome then .valid else .orphan
        else .invalid
      | none => Slot.missingState files.part
    report := match files.report.live with
      | some bytes =>
        match receiptValue with
        | some receipt =>
          if reportValidates readers context receipt bytes then .valid else .invalid
        | none => .orphan
      | none => Slot.missingState files.report
    receiptValue := receiptValue }

def taskInspectionComplete (inspection : TaskArtifactInspection) : Bool :=
  inspection.part = .valid ∧ inspection.receipt = .valid ∧ inspection.report = .valid

/-! ### Actions -/

abbrev RecoveryProgram (Bytes α : Type) := Program (TaskFiles Bytes) Error α

def partLens : Lens (TaskFiles Bytes) (Slot Bytes) where
  get files := files.part
  set files slot := { files with part := slot }
  get_set _ _ := rfl
  set_get _ := rfl
  set_set _ _ _ := rfl

def receiptLens : Lens (TaskFiles Bytes) (Slot Bytes) where
  get files := files.receipt
  set files slot := { files with receipt := slot }
  get_set _ _ := rfl
  set_get _ := rfl
  set_set _ _ _ := rfl

def reportLens : Lens (TaskFiles Bytes) (Slot Bytes) where
  get files := files.report
  set files slot := { files with report := slot }
  get_set _ _ := rfl
  set_get _ := rfl
  set_set _ _ _ := rfl

def quarantineRegularFile : Program (Slot Bytes) Error Unit := do
  let slot ← .get
  if slot.live.isNone ∨ slot.quarantine.isSome then
    .throw (.accountingClosure "embedding recovery quarantine state conflicts")
  else
    .modify Slot.quarantineLive

def restoreQuarantinedRegularFile : Program (Slot Bytes) Error Unit := do
  let slot ← .get
  if slot.live.isSome ∨ slot.quarantine.isNone then
    .throw (.accountingClosure "embedding recovery restore state conflicts")
  else
    .modify Slot.restoreQuarantine

/-- The part, when the inspection found it unusable: an invalid one is verified once more
and quarantined, an orphan is quarantined as it is. -/
def quarantinePart (inspection : TaskArtifactInspection) :
    Program (Slot Bytes) Error (List String) :=
  match inspection.part with
  | .invalid => do
    let state ← (prepareEmbeddingTaskPart readers.shard context.partQuarantinePath
      (context.partRequest inspection.receiptValue)).mapError .embedding
    match state with
    | .quarantined _ => return [context.task.resultPath.val]
    | _ => .throw (.accountingClosure "invalid embedding part was not quarantined")
  | .orphan => do
    quarantineRegularFile
    return [context.task.resultPath.val]
  | _ => return []

/-- A file that is there and is not usable is quarantined. -/
def quarantineUnless (usable : Bool) (name : String) : Program (Slot Bytes) Error (List String) := do
  let slot ← .get
  if slot.live.isSome ∧ usable = false then
    quarantineRegularFile
    return [name]
  else
    return []

def reportName (task : EmbeddingTaskV2) : String := "reports/" ++ task.taskId ++ ".json"

def quarantineEmbeddingTaskArtifacts (inspection : TaskArtifactInspection) :
    RecoveryProgram Bytes (List String) := do
  if taskInspectionComplete inspection then
    return []
  else
    let part ← (quarantinePart readers context inspection).focus partLens
    let partIsUsable : Bool := inspection.part = .valid
    let receipt ← (quarantineUnless (inspection.receipt = .valid ∧ partIsUsable)
      context.task.receiptPath.val).focus receiptLens
    let report ← (quarantineUnless
      (inspection.report = .valid ∧ partIsUsable ∧ inspection.receipt = .valid)
      (reportName context.task)).focus reportLens
    return part ++ receipt ++ report

/-- A sibling that is there is moved back. -/
def restoreIfQuarantined (restore : Program (Slot Bytes) Error Unit) (name : String) :
    Program (Slot Bytes) Error (List String) := do
  let slot ← .get
  if slot.quarantine.isSome then
    restore
    return [name]
  else
    return []

def restoreEmbeddingTaskArtifacts : RecoveryProgram Bytes (List String) := do
  let part ← (restoreIfQuarantined (restoreQuarantinedEmbeddingTaskPart.mapError .embedding)
    context.task.resultPath.val).focus partLens
  let receipt ← (restoreIfQuarantined restoreQuarantinedRegularFile
    context.task.receiptPath.val).focus receiptLens
  let report ← (restoreIfQuarantined restoreQuarantinedRegularFile
    (reportName context.task)).focus reportLens
  return part ++ receipt ++ report

/-- What an action does to the files that were inspected. -/
def RecoveryAction.changes (initial : TaskArtifactInspection) :
    RecoveryAction → RecoveryProgram Bytes (List String)
  | .verify => pure []
  | .quarantine => quarantineEmbeddingTaskArtifacts readers context initial
  | .restore => restoreEmbeddingTaskArtifacts context

def RecoveryContext.report (action : RecoveryAction) (inspected : TaskArtifactInspection)
    (changedArtifacts : List String) : TaskRecoveryReport where
  schemaVersion := "livefire.rag.embedding-task-recovery/1"
  action := action.name
  planSha256 := context.plan.componentSha256
  embeddingProfileSha256 := context.plan.embeddingProfile.component.sha256
  taskId := context.task.taskId
  taskIndex := context.taskIndex
  complete := taskInspectionComplete inspected
  part := inspected.part
  receipt := inspected.receipt
  report := inspected.report
  changedArtifacts := changedArtifacts
  modelContacted := false

def recoverEmbeddingTask (action : RecoveryAction) :
    RecoveryProgram Bytes TaskRecoveryReport := do
  let files ← .get
  let initial := inspectEmbeddingTaskArtifacts prims readers context files
  let changedArtifacts ← action.changes readers context initial
  let files ← .get
  let inspected := inspectEmbeddingTaskArtifacts prims readers context files
  let complete := taskInspectionComplete inspected
  if action = .verify ∧ complete = false then
    .throw .embeddingTaskIncomplete
  else
    return context.report action inspected changedArtifacts

/-! ### Sequences of actions -/

/-- The actions, each of them cut off anywhere or run to its end, lead from the first files
to the last. -/
inductive Recoveries : TaskFiles Bytes → List RecoveryAction → TaskFiles Bytes → Prop where
  | nil (files : TaskFiles Bytes) : Recoveries files [] files
  | cons {files between files' : TaskFiles Bytes} {action : RecoveryAction}
      {actions : List RecoveryAction}
      (hcut : (recoverEmbeddingTask prims readers context action).Cut files between)
      (hrest : Recoveries between actions files') : Recoveries files (action :: actions) files'

end Model

/-! ### Conservation -/

section Conservation

variable {Bytes : Type}

/-- What a path and its sibling hold. -/
def contents (slot : Slot Bytes) : List Bytes := slot.live.toList ++ slot.quarantine.toList

/-- Each artifact has the contents it had, at its path or at its sibling. -/
structure TaskFiles.Conserves (files files' : TaskFiles Bytes) : Prop where
  part : (contents files'.part).Perm (contents files.part)
  receipt : (contents files'.receipt).Perm (contents files.receipt)
  report : (contents files'.report).Perm (contents files.report)

theorem TaskFiles.Conserves.refl (files : TaskFiles Bytes) : files.Conserves files :=
  ⟨.refl _, .refl _, .refl _⟩

theorem TaskFiles.Conserves.trans {files between files' : TaskFiles Bytes}
    (h : files.Conserves between) (h' : between.Conserves files') : files.Conserves files' :=
  ⟨h'.part.trans h.part, h'.receipt.trans h.receipt, h'.report.trans h.report⟩

/-- A rename to a free sibling keeps the contents. -/
theorem contents_quarantineLive {slot : Slot Bytes} (hfree : slot.quarantine = none) :
    contents slot.quarantineLive = contents slot := by
  show [] ++ slot.live.toList = slot.live.toList ++ slot.quarantine.toList
  rw [hfree]
  exact (List.append_nil _).symm

/-- A rename back to a free path keeps the contents. -/
theorem contents_restoreQuarantine {slot : Slot Bytes} (hfree : slot.live = none) :
    contents slot.restoreQuarantine = contents slot := by
  show slot.quarantine.toList ++ [] = slot.live.toList ++ slot.quarantine.toList
  rw [hfree]
  exact List.append_nil _

/-- A rename that keeps the contents, before a program that keeps them. -/
theorem holds_rename {ε α : Type} {held : List Bytes} {slot : Slot Bytes}
    {rename : Slot Bytes → Slot Bytes} {next : Program (Slot Bytes) ε α}
    (hkeeps : contents (rename slot) = contents slot) (hslot : (contents slot).Perm held)
    (hnext : next.Preserves fun slot => (contents slot).Perm held) :
    (Program.write rename next).Holds (fun slot => (contents slot).Perm held)
      (fun _ slot => (contents slot).Perm held) slot := by
  refine ⟨hslot, hnext (rename slot) ?_⟩
  show (contents (rename slot)).Perm held
  rw [hkeeps]
  exact hslot

/-- A program over one artifact that keeps its contents, whatever they are. -/
def ConservesSlot {ε α : Type} (program : Program (Slot Bytes) ε α) : Prop :=
  ∀ held : List Bytes, program.Preserves fun slot => (contents slot).Perm held

theorem quarantineRegularFile_conserves :
    ConservesSlot (quarantineRegularFile : Program (Slot Bytes) Error Unit) := by
  intro held
  refine Program.preserves_get_bind fun slot hslot => ?_
  split
  · exact ⟨hslot, hslot⟩
  · next hstate =>
    -- the rename is reached only when the sibling is free
    have hfree : slot.quarantine = none := by simpa using (not_or.mp hstate).2
    exact holds_rename (contents_quarantineLive hfree) hslot (Program.preserves_pure _)

theorem restoreQuarantinedRegularFile_conserves :
    ConservesSlot (restoreQuarantinedRegularFile : Program (Slot Bytes) Error Unit) := by
  intro held
  refine Program.preserves_get_bind fun slot hslot => ?_
  split
  · exact ⟨hslot, hslot⟩
  · next hstate =>
    have hfree : slot.live = none := by simpa using (not_or.mp hstate).1
    exact holds_rename (contents_restoreQuarantine hfree) hslot (Program.preserves_pure _)

theorem restoreQuarantinedEmbeddingTaskPart_conserves :
    ConservesSlot (restoreQuarantinedEmbeddingTaskPart : SlotProgram Bytes Unit) := by
  intro held
  refine Program.preserves_get_bind fun slot hslot => ?_
  split
  · exact ⟨hslot, hslot⟩
  · next hlive =>
    have hfree : slot.live = none := by simpa using hlive
    split
    · exact ⟨hslot, hslot⟩
    · exact holds_rename (contents_restoreQuarantine hfree) hslot (Program.preserves_pure _)

theorem prepareEmbeddingTaskPart_conserves (reader : ShardReader Bytes) (path : String)
    (request : PartRequest) : ConservesSlot (prepareEmbeddingTaskPart reader path request) := by
  intro held
  unfold prepareEmbeddingTaskPart
  split
  · exact Program.preserves_throw _
  refine Program.preserves_get_bind fun slot hslot => ?_
  split
  · split <;> exact ⟨hslot, hslot⟩
  split
  · exact ⟨hslot, hslot⟩
  split
  · exact ⟨hslot, hslot⟩
  · next hquarantine =>
    have hfree : slot.quarantine = none := by simpa using hquarantine
    exact holds_rename (contents_quarantineLive hfree) hslot (Program.preserves_pure _)

theorem quarantinePart_conserves (readers : ArtifactReaders Bytes) (context : RecoveryContext)
    (inspection : TaskArtifactInspection) :
    ConservesSlot (quarantinePart readers context inspection) := by
  intro held
  unfold quarantinePart
  split
  · refine ((prepareEmbeddingTaskPart_conserves _ _ _ held).mapError _).bind fun state => ?_
    split
    · exact Program.preserves_pure _
    · exact Program.preserves_throw _
  · exact (quarantineRegularFile_conserves held).bind fun _ => Program.preserves_pure _
  · exact Program.preserves_pure _

theorem quarantineUnless_conserves (usable : Bool) (name : String) :
    ConservesSlot (quarantineUnless usable name : Program (Slot Bytes) Error (List String)) := by
  intro held
  refine Program.preserves_get_bind fun slot hslot => ?_
  split
  · exact ((quarantineRegularFile_conserves held).bind
      fun _ => Program.preserves_pure _) slot hslot
  · exact ⟨hslot, hslot⟩

theorem restoreIfQuarantined_conserves {restore : Program (Slot Bytes) Error Unit}
    (hrestore : ConservesSlot restore) (name : String) :
    ConservesSlot (restoreIfQuarantined restore name) := by
  intro held
  refine Program.preserves_get_bind fun slot hslot => ?_
  split
  · exact ((hrestore held).bind fun _ => Program.preserves_pure _) slot hslot
  · exact ⟨hslot, hslot⟩

/-- A program over one of the three artifacts leaves the other two as they are. -/
theorem focus_conserves {α : Type} {program : Program (Slot Bytes) Error α}
    (hprogram : ConservesSlot program) (files : TaskFiles Bytes) :
    (program.focus partLens).Preserves files.Conserves ∧
    (program.focus receiptLens).Preserves files.Conserves ∧
    (program.focus reportLens).Preserves files.Conserves := by
  refine ⟨?_, ?_, ?_⟩
  · refine Program.Preserves.focus fun files' hfiles' slot hslot => ?_
    exact (hprogram _ slot hslot.part).imp (fun _ h => ⟨h, hfiles'.receipt, hfiles'.report⟩)
      fun _ _ h => ⟨h, hfiles'.receipt, hfiles'.report⟩
  · refine Program.Preserves.focus fun files' hfiles' slot hslot => ?_
    exact (hprogram _ slot hslot.receipt).imp (fun _ h => ⟨hfiles'.part, h, hfiles'.report⟩)
      fun _ _ h => ⟨hfiles'.part, h, hfiles'.report⟩
  · refine Program.Preserves.focus fun files' hfiles' slot hslot => ?_
    exact (hprogram _ slot hslot.report).imp (fun _ h => ⟨hfiles'.part, hfiles'.receipt, h⟩)
      fun _ _ h => ⟨hfiles'.part, hfiles'.receipt, h⟩

variable (prims : Primitives) (readers : ArtifactReaders Bytes) (context : RecoveryContext)

theorem quarantine_conserves (inspection : TaskArtifactInspection) (files : TaskFiles Bytes) :
    (quarantineEmbeddingTaskArtifacts readers context inspection).Preserves files.Conserves := by
  unfold quarantineEmbeddingTaskArtifacts
  split
  · exact Program.preserves_pure _
  have hpart := (focus_conserves (quarantinePart_conserves readers context inspection) files).1
  refine hpart.bind fun _ => ?_
  refine (focus_conserves (quarantineUnless_conserves _ _) files).2.1.bind fun _ => ?_
  exact (focus_conserves (quarantineUnless_conserves _ _) files).2.2.bind
    fun _ => Program.preserves_pure _

theorem restore_conserves (files : TaskFiles Bytes) :
    (restoreEmbeddingTaskArtifacts context : RecoveryProgram Bytes _).Preserves
      files.Conserves := by
  have hpart : ConservesSlot
      ((restoreQuarantinedEmbeddingTaskPart : SlotProgram Bytes Unit).mapError Error.embedding) :=
    fun held => (restoreQuarantinedEmbeddingTaskPart_conserves held).mapError _
  have hfile := @restoreIfQuarantined_conserves Bytes _
    restoreQuarantinedRegularFile_conserves
  refine (focus_conserves (restoreIfQuarantined_conserves hpart _) files).1.bind fun _ => ?_
  refine (focus_conserves (hfile _) files).2.1.bind fun _ => ?_
  exact (focus_conserves (hfile _) files).2.2.bind fun _ => Program.preserves_pure _

/-- **One action.** Cut off anywhere or run to its end, it keeps every content. -/
theorem recover_conserves (action : RecoveryAction) (files : TaskFiles Bytes) :
    (recoverEmbeddingTask prims readers context action).Preserves files.Conserves := by
  refine Program.preserves_get_bind fun files₀ hfiles₀ => ?_
  have hchanges : (action.changes readers context
      (inspectEmbeddingTaskArtifacts prims readers context files₀)).Preserves
        files.Conserves := by
    cases action with
    | verify => exact Program.preserves_pure _
    | quarantine => exact quarantine_conserves readers context _ files
    | restore => exact restore_conserves context files
  refine (hchanges.bind fun _ => ?_) files₀ hfiles₀
  refine Program.preserves_get_bind fun files₁ hfiles₁ => ?_
  dsimp only
  split
  · exact ⟨hfiles₁, hfiles₁⟩
  · exact ⟨hfiles₁, hfiles₁⟩

/-- **Runs.** No sequence of actions, whichever of them are cut off, loses, duplicates or
overwrites a content. -/
theorem recoveries_conserve {files files' : TaskFiles Bytes} {actions : List RecoveryAction}
    (h : Recoveries prims readers context files actions files') : files.Conserves files' := by
  induction h with
  | nil files => exact .refl files
  | @cons files between files' action actions hcut _ ih =>
    have hstep : files.Conserves between :=
      (recover_conserves prims readers context action files).of_cut (.refl files) hcut
    exact hstep.trans ih

end Conservation

/-! ### What a quarantine leaves -/

section Quarantine

variable {Bytes : Type}

/-- No artifact has a sibling. -/
structure TaskFiles.WithoutSiblings (files : TaskFiles Bytes) : Prop where
  part : files.part.quarantine = none
  receipt : files.receipt.quarantine = none
  report : files.report.quarantine = none

/-- The files after a quarantine: a complete task is left alone, beside a usable part only
the report moves, and without one everything moves. -/
def TaskFiles.quarantined (files : TaskFiles Bytes) (inspection : TaskArtifactInspection) :
    TaskFiles Bytes :=
  if taskInspectionComplete inspection then files
  else if inspection.part = .valid then { files with report := files.report.quarantineLive }
  else ⟨files.part.quarantineLive, files.receipt.quarantineLive, files.report.quarantineLive⟩

/-- The live artifacts belong together: a live part is the one of a live receipt, a live
receipt is accepted and its part is there, and a live report is accepted with both. -/
structure ValidTogether (prims : Primitives) (readers : ArtifactReaders Bytes)
    (context : RecoveryContext) (files : TaskFiles Bytes) : Prop where
  part : ∀ part, files.part.live = some part → ∃ bytes receipt,
    files.receipt.live = some bytes ∧ acceptedReceipt prims readers context bytes = some receipt ∧
      partVerifies readers context (some receipt) part = true
  receipt : ∀ bytes, files.receipt.live = some bytes → ∃ receipt part,
    acceptedReceipt prims readers context bytes = some receipt ∧ files.part.live = some part ∧
      partVerifies readers context (some receipt) part = true
  report : ∀ report, files.report.live = some report → ∃ bytes receipt part,
    files.receipt.live = some bytes ∧ acceptedReceipt prims readers context bytes = some receipt ∧
      files.part.live = some part ∧ partVerifies readers context (some receipt) part = true ∧
      reportValidates readers context receipt report = true

/-! #### One artifact -/

theorem quarantineUnless_run {slot : Slot Bytes} (hfree : slot.quarantine = none) (usable : Bool)
    (name : String) : ∃ names, (quarantineUnless usable name).run slot =
      (.ok names, if usable then slot else slot.quarantineLive) := by
  obtain ⟨live, quarantine⟩ := slot
  obtain rfl : quarantine = none := hfree
  cases live with
  | none => cases usable <;> exact ⟨[], rfl⟩
  | some bytes =>
    cases usable with
    | true => exact ⟨[], rfl⟩
    | false => exact ⟨[name], rfl⟩

theorem quarantineUnless_run_usable (slot : Slot Bytes) (name : String) :
    (quarantineUnless true name).run slot = (.ok [], slot) := by
  obtain ⟨live, quarantine⟩ := slot
  cases live <;> rfl

theorem quarantineUnless_run_missing {slot : Slot Bytes} (hmissing : slot.live = none)
    (usable : Bool) (name : String) : (quarantineUnless usable name).run slot = (.ok [], slot) := by
  obtain ⟨live, quarantine⟩ := slot
  obtain rfl : live = none := hmissing
  rfl

/-- A restore gives back what a slot without a sibling held before it was, or was not,
quarantined. -/
theorem restoreIfQuarantined_run {slot slot' : Slot Bytes} (hfree : slot.quarantine = none)
    (hslot' : slot' = slot ∨ slot' = slot.quarantineLive) (name : String) :
    ∃ names, (restoreIfQuarantined restoreQuarantinedRegularFile name).run slot' =
      (.ok names, slot) := by
  obtain ⟨live, quarantine⟩ := slot
  obtain rfl : quarantine = none := hfree
  rcases hslot' with rfl | rfl
  · exact ⟨[], rfl⟩
  · cases live with
    | none => exact ⟨[], rfl⟩
    | some bytes => exact ⟨[name], rfl⟩

theorem restorePart_run {slot slot' : Slot Bytes} (hfree : slot.quarantine = none)
    (hslot' : slot' = slot ∨ slot' = slot.quarantineLive) (name : String) :
    ∃ names, (restoreIfQuarantined (restoreQuarantinedEmbeddingTaskPart.mapError .embedding)
      name).run slot' = (.ok names, slot) := by
  obtain ⟨live, quarantine⟩ := slot
  obtain rfl : quarantine = none := hfree
  rcases hslot' with rfl | rfl
  · exact ⟨[], rfl⟩
  · cases live with
    | none => exact ⟨[], rfl⟩
    | some bytes => exact ⟨[name], rfl⟩

variable (prims : Primitives) (readers : ArtifactReaders Bytes) (context : RecoveryContext)

/-! #### The inspection -/

section Inspection

variable {files : TaskFiles Bytes}

theorem inspect_receipt_eq_valid :
    (inspectEmbeddingTaskArtifacts prims readers context files).receipt = .valid ↔
      (inspectEmbeddingTaskArtifacts prims readers context files).receiptValue.isSome := by
  unfold inspectEmbeddingTaskArtifacts Slot.missingState
  dsimp only
  split
  · next h => exact iff_of_true rfl h
  · next h =>
    refine iff_of_false ?_ h
    split
    · exact nofun
    · split <;> exact nofun

/-- A missing part is neither usable nor to be moved. -/
theorem inspect_part_of_missing (hmissing : files.part.live = none) :
    (inspectEmbeddingTaskArtifacts prims readers context files).part =
      Slot.missingState files.part := by
  unfold inspectEmbeddingTaskArtifacts
  rw [hmissing]

theorem inspect_part_of_live {bytes : Bytes} (hlive : files.part.live = some bytes) :
    (inspectEmbeddingTaskArtifacts prims readers context files).part =
      let receiptValue := (inspectEmbeddingTaskArtifacts prims readers context files).receiptValue
      if partVerifies readers context receiptValue bytes then
        if receiptValue.isSome then .valid else .orphan
      else .invalid := by
  unfold inspectEmbeddingTaskArtifacts
  rw [hlive]

/-- A part is usable when it is there and verifies with the digest of an accepted receipt. -/
theorem inspect_part_eq_valid :
    (inspectEmbeddingTaskArtifacts prims readers context files).part = .valid ↔
      ∃ bytes receipt part, files.receipt.live = some bytes ∧
        acceptedReceipt prims readers context bytes = some receipt ∧
        files.part.live = some part ∧ partVerifies readers context (some receipt) part = true := by
  have hvalue : (inspectEmbeddingTaskArtifacts prims readers context files).receiptValue =
      files.receipt.live.bind (acceptedReceipt prims readers context) := rfl
  constructor
  · intro hvalid
    cases hlive : files.part.live with
    | none =>
      rw [inspect_part_of_missing prims readers context hlive, Slot.missingState] at hvalid
      split at hvalid <;> cases hvalid
    | some part =>
      rw [inspect_part_of_live prims readers context hlive] at hvalid
      dsimp only at hvalid
      split at hvalid
      · next hverifies =>
        split at hvalid
        · next hsome =>
          obtain ⟨receipt, hreceipt⟩ := Option.isSome_iff_exists.mp hsome
          rw [hreceipt] at hverifies
          rw [hvalue] at hreceipt
          obtain ⟨bytes, hbytes, haccepted⟩ := Option.bind_eq_some_iff.mp hreceipt
          exact ⟨bytes, receipt, part, hbytes, haccepted, rfl, hverifies⟩
        · cases hvalid
      · cases hvalid
  · rintro ⟨bytes, receipt, part, hbytes, haccepted, hlive, hverifies⟩
    rw [inspect_part_of_live prims readers context hlive, hvalue, hbytes]
    dsimp only [Option.bind_some]
    rw [haccepted, if_pos hverifies]
    rfl

theorem inspect_receipt_of_part
    (h : (inspectEmbeddingTaskArtifacts prims readers context files).part = .valid) :
    (inspectEmbeddingTaskArtifacts prims readers context files).receipt = .valid := by
  obtain ⟨bytes, receipt, part, hbytes, haccepted, -, -⟩ :=
    (inspect_part_eq_valid prims readers context).mp h
  rw [inspect_receipt_eq_valid]
  show (files.receipt.live.bind (acceptedReceipt prims readers context)).isSome
  rw [hbytes, Option.bind_some, haccepted]
  rfl

/-- A report is valid when it is there and validates with an accepted receipt. -/
theorem inspect_report_eq_valid :
    (inspectEmbeddingTaskArtifacts prims readers context files).report = .valid ↔
      ∃ bytes receipt report, files.receipt.live = some bytes ∧
        acceptedReceipt prims readers context bytes = some receipt ∧
        files.report.live = some report ∧
        reportValidates readers context receipt report = true := by
  unfold inspectEmbeddingTaskArtifacts
  dsimp only
  cases hlive : files.report.live with
  | none =>
    refine iff_of_false ?_ fun ⟨_, _, _, _, _, h, _⟩ => nomatch h
    dsimp only [Slot.missingState]
    split <;> exact nofun
  | some report =>
    dsimp only
    cases hvalue : files.receipt.live.bind (acceptedReceipt prims readers context) with
    | none =>
      refine iff_of_false nofun ?_
      rintro ⟨bytes, receipt, _, hbytes, haccepted, -, -⟩
      rw [hbytes, Option.bind_some, haccepted] at hvalue
      cases hvalue
    | some receipt =>
      obtain ⟨bytes, hbytes, haccepted⟩ := Option.bind_eq_some_iff.mp hvalue
      dsimp only
      split
      · next hvalidates =>
        exact iff_of_true rfl ⟨bytes, receipt, report, hbytes, haccepted, rfl, hvalidates⟩
      · next hvalidates =>
        refine iff_of_false nofun ?_
        rintro ⟨bytes', receipt', report', hbytes', haccepted', hreport', h⟩
        obtain rfl : bytes = bytes' := Option.some.inj (hbytes.symm.trans hbytes')
        obtain rfl : receipt = receipt' := Option.some.inj (haccepted.symm.trans haccepted')
        obtain rfl : report = report' := Option.some.inj hreport'
        exact hvalidates h

end Inspection

/-! #### The quarantine and the restore -/

section Runs

variable {files : TaskFiles Bytes}

omit prims readers context in
theorem quarantineLive_of_missing {slot : Slot Bytes} (hlive : slot.live = none)
    (hfree : slot.quarantine = none) : slot.quarantineLive = slot := by
  obtain ⟨live, quarantine⟩ := slot
  obtain rfl : live = none := hlive
  obtain rfl : quarantine = none := hfree
  rfl

/-- One program for each artifact, in order, with the names they answer. -/
def inOrder (part receipt report : Program (Slot Bytes) Error (List String)) :
    RecoveryProgram Bytes (List String) := do
  let partNames ← part.focus partLens
  let receiptNames ← receipt.focus receiptLens
  let reportNames ← report.focus reportLens
  return partNames ++ receiptNames ++ reportNames

omit prims readers context in
theorem inOrder_run {part receipt report : Program (Slot Bytes) Error (List String)}
    {a b c : List String} {part' receipt' report' : Slot Bytes}
    (hpart : part.run files.part = (.ok a, part'))
    (hreceipt : receipt.run files.receipt = (.ok b, receipt'))
    (hreport : report.run files.report = (.ok c, report')) :
    (inOrder part receipt report).run files = (.ok (a ++ b ++ c), ⟨part', receipt', report'⟩) := by
  have hfirst : (part.focus partLens).run files = (.ok a, { files with part := part' }) := by
    rw [Program.run_focus]
    show ((part.run files.part).1, partLens.set files (part.run files.part).2) = _
    rw [hpart]
    rfl
  have hsecond : (receipt.focus receiptLens).run { files with part := part' } =
      (.ok b, ⟨part', receipt', files.report⟩) := by
    rw [Program.run_focus]
    show ((receipt.run files.receipt).1,
      receiptLens.set { files with part := part' } (receipt.run files.receipt).2) = _
    rw [hreceipt]
    rfl
  have hthird : (report.focus reportLens).run ⟨part', receipt', files.report⟩ =
      (.ok c, ⟨part', receipt', report'⟩) := by
    rw [Program.run_focus]
    show ((report.run files.report).1,
      reportLens.set ⟨part', receipt', files.report⟩ (report.run files.report).2) = _
    rw [hreport]
    rfl
  unfold inOrder
  rw [Program.run_bind, hfirst]
  dsimp only
  rw [Program.run_bind, hsecond]
  dsimp only
  rw [Program.run_bind, hthird]
  rfl

omit prims readers context in
/-- When the three answer, so did the first. -/
theorem exists_of_inOrder_run {part receipt report : Program (Slot Bytes) Error (List String)}
    {names : List String} {files' : TaskFiles Bytes}
    (hrun : (inOrder part receipt report).run files = (.ok names, files')) :
    ∃ a part', part.run files.part = (.ok a, part') := by
  unfold inOrder at hrun
  rw [Program.run_bind, Program.run_focus] at hrun
  cases hpart : part.run files.part with
  | mk result part' =>
    have hfirst : part.run (partLens.get files) = (result, part') := hpart
    rw [hfirst] at hrun
    cases result with
    | ok a => exact ⟨a, part', rfl⟩
    | error e => cases hrun

/-- A preparation that answers, of a part that does not verify, has moved it. -/
theorem prepare_run_of_refused {path : String} {request : PartRequest} {slot slot' : Slot Bytes}
    {bytes : Bytes} {state : EmbeddingTaskPartPreparation} (hlive : slot.live = some bytes)
    (hrefused : (verifyEmbeddingTaskPart readers.shard bytes request).isOk = false)
    (hrun : (prepareEmbeddingTaskPart readers.shard path request).run slot = (.ok state, slot')) :
    slot' = slot.quarantineLive := by
  obtain ⟨live, quarantine⟩ := slot
  obtain rfl : live = some bytes := hlive
  unfold prepareEmbeddingTaskPart at hrun
  split at hrun
  · cases hrun
  cases hverify : verifyEmbeddingTaskPart readers.shard bytes request with
  | ok part =>
    rw [hverify] at hrefused
    cases hrefused
  | error error =>
    have hget : ∀ slot : Slot Bytes, (Program.get : SlotProgram Bytes _).run slot = (.ok slot, slot) :=
      fun _ => rfl
    simp only [Program.run_bind, hget, hverify] at hrun
    cases quarantine with
    | none =>
      cases hrun
      rfl
    | some bytes' => cases hrun

theorem quarantinePart_run (hfree : files.part.quarantine = none) {names : List String}
    {part : Slot Bytes}
    (hrun : (quarantinePart readers context
      (inspectEmbeddingTaskArtifacts prims readers context files)).run files.part =
        (.ok names, part)) :
    part = if (inspectEmbeddingTaskArtifacts prims readers context files).part = .valid
      then files.part else files.part.quarantineLive := by
  unfold quarantinePart at hrun
  cases hlive : files.part.live with
  | none =>
    -- nothing to move: moving the absent part changes nothing
    have hstate := inspect_part_of_missing prims readers context hlive
    rw [Slot.missingState, hfree, Option.isSome_none, if_neg Bool.false_ne_true] at hstate
    rw [hstate] at hrun ⊢
    cases hrun
    rw [if_neg nofun, quarantineLive_of_missing hlive hfree]
  | some bytes =>
    have hstate := inspect_part_of_live prims readers context hlive
    dsimp only at hstate
    split at hstate
    · split at hstate
      · rw [hstate] at hrun ⊢
        cases hrun
        rfl
      · -- an orphan is moved by a plain rename
        rw [hstate] at hrun ⊢
        rw [if_neg nofun]
        have hrename : (quarantineRegularFile : Program (Slot Bytes) Error Unit).run files.part =
            (.ok (), files.part.quarantineLive) := by
          obtain ⟨⟨live, quarantine⟩, _, _⟩ := files
          obtain rfl : live = some bytes := hlive
          obtain rfl : quarantine = none := hfree
          rfl
        dsimp only at hrun
        rw [Program.run_bind, hrename] at hrun
        cases hrun
        rfl
    · next hrefused =>
      -- an invalid part is verified again, and refused again
      rw [hstate] at hrun ⊢
      rw [if_neg nofun]
      dsimp only at hrun
      rw [Program.run_bind, Program.run_mapError] at hrun
      cases hprepare : (prepareEmbeddingTaskPart readers.shard context.partQuarantinePath
          (context.partRequest (inspectEmbeddingTaskArtifacts prims readers context
            files).receiptValue)).run files.part with
      | mk result slot' =>
        rw [hprepare] at hrun
        cases result with
        | error error => cases hrun
        | ok state =>
          have hmoved : slot' = files.part.quarantineLive :=
            prepare_run_of_refused readers hlive (by simpa [partVerifies] using hrefused) hprepare
          change Program.run (match state with
            | .quarantined _ => _
            | _ => _) slot' = _ at hrun
          cases state <;> cases hrun
          exact hmoved

/-- **What a quarantine leaves.** When it answers, on files without siblings. -/
theorem quarantine_run (hfree : files.WithoutSiblings) {names : List String}
    {files' : TaskFiles Bytes}
    (hrun : (quarantineEmbeddingTaskArtifacts readers context
      (inspectEmbeddingTaskArtifacts prims readers context files)).run files =
        (.ok names, files')) :
    files' = files.quarantined (inspectEmbeddingTaskArtifacts prims readers context files) ∧
      (taskInspectionComplete (inspectEmbeddingTaskArtifacts prims readers context files) = true →
        names = []) := by
  have hreceiptOf := @inspect_receipt_of_part Bytes prims readers context files
  have hpartRun := @quarantinePart_run Bytes prims readers context files hfree.part
  generalize hinspection : inspectEmbeddingTaskArtifacts prims readers context files =
    inspection at hrun hreceiptOf hpartRun ⊢
  unfold quarantineEmbeddingTaskArtifacts at hrun
  unfold TaskFiles.quarantined
  by_cases hcomplete : taskInspectionComplete inspection = true
  · rw [if_pos hcomplete] at hrun ⊢
    cases hrun
    exact ⟨rfl, fun _ => rfl⟩
  rw [if_neg hcomplete] at hrun ⊢
  refine ⟨?_, fun h => absurd h hcomplete⟩
  obtain ⟨a, part, hpart⟩ := exists_of_inOrder_run hrun
  obtain rfl := hpartRun hpart
  obtain ⟨b, hreceipt⟩ := quarantineUnless_run hfree.receipt
    (inspection.receipt = .valid ∧ (decide (inspection.part = .valid)) = true)
    context.task.receiptPath.val
  obtain ⟨c, hreport⟩ := quarantineUnless_run hfree.report
    (inspection.report = .valid ∧ (decide (inspection.part = .valid)) = true ∧
      inspection.receipt = .valid) (reportName context.task)
  have hresult := hrun.symm.trans (inOrder_run hpart hreceipt hreport)
  obtain rfl := (Prod.mk.inj hresult).2
  by_cases hvalid : inspection.part = .valid
  · -- beside a usable part there is a usable receipt, so the report is what is missing
    have hreceiptValid : inspection.receipt = .valid := hreceiptOf hvalid
    have hreportInvalid : inspection.report ≠ .valid := by
      intro hreportValid
      apply hcomplete
      simp [taskInspectionComplete, hvalid, hreceiptValid, hreportValid]
    simp [hvalid, hreceiptValid, hreportInvalid]
  · simp [hvalid]

/-- What stays live after a quarantine is valid together. -/
theorem quarantined_validTogether : ValidTogether prims readers context
    (files.quarantined (inspectEmbeddingTaskArtifacts prims readers context files)) := by
  unfold TaskFiles.quarantined
  by_cases hvalid : (inspectEmbeddingTaskArtifacts prims readers context files).part = .valid
  · obtain ⟨bytes, receipt, part, hbytes, haccepted, hpart, hverifies⟩ :=
      (inspect_part_eq_valid prims readers context).mp hvalid
    have hpartOf : ∀ part', files.part.live = some part' → ∃ bytes receipt,
        files.receipt.live = some bytes ∧
          acceptedReceipt prims readers context bytes = some receipt ∧
          partVerifies readers context (some receipt) part' = true := by
      intro part' hpart'
      obtain rfl : part = part' := Option.some.inj (hpart.symm.trans hpart')
      exact ⟨bytes, receipt, hbytes, haccepted, hverifies⟩
    have hreceiptOf : ∀ bytes', files.receipt.live = some bytes' → ∃ receipt part,
        acceptedReceipt prims readers context bytes' = some receipt ∧
          files.part.live = some part ∧ partVerifies readers context (some receipt) part = true := by
      intro bytes' hbytes'
      obtain rfl : bytes = bytes' := Option.some.inj (hbytes.symm.trans hbytes')
      exact ⟨receipt, part, haccepted, hpart, hverifies⟩
    split
    · next hcomplete =>
      refine ⟨hpartOf, hreceiptOf, fun report hreport => ?_⟩
      have hreportValid : (inspectEmbeddingTaskArtifacts prims readers context files).report =
          .valid := by
        simp only [taskInspectionComplete, decide_eq_true_eq] at hcomplete
        exact hcomplete.2.2
      obtain ⟨bytes', receipt', report', hbytes', haccepted', hreport', hvalidates⟩ :=
        (inspect_report_eq_valid prims readers context).mp hreportValid
      obtain rfl : report' = report := Option.some.inj (hreport'.symm.trans hreport)
      obtain ⟨receipt'', part', haccepted'', hpart', hverifies'⟩ := hreceiptOf bytes' hbytes'
      obtain rfl : receipt'' = receipt' := Option.some.inj (haccepted''.symm.trans haccepted')
      exact ⟨bytes', receipt'', part', hbytes', haccepted', hpart', hverifies', hvalidates⟩
    · exact ⟨hpartOf, hreceiptOf, nofun⟩
  · -- without a usable part nothing stays live
    have hincomplete : taskInspectionComplete
        (inspectEmbeddingTaskArtifacts prims readers context files) = false := by
      simp [taskInspectionComplete, hvalid]
    rw [if_neg (ne_true_of_eq_false hincomplete), if_neg hvalid]
    exact ⟨nofun, nofun, nofun⟩

/-- A second quarantine finds nothing to move. -/
theorem quarantine_run_quarantined {files' : TaskFiles Bytes}
    (hfiles' : files' =
      files.quarantined (inspectEmbeddingTaskArtifacts prims readers context files)) :
    (quarantineEmbeddingTaskArtifacts readers context
      (inspectEmbeddingTaskArtifacts prims readers context files')).run files' =
        (.ok [], files') := by
  unfold quarantineEmbeddingTaskArtifacts
  split
  · rfl
  next hincomplete' =>
  unfold TaskFiles.quarantined at hfiles'
  split at hfiles'
  · next hcomplete =>
    subst hfiles'
    exact absurd hcomplete hincomplete'
  split at hfiles'
  · next hvalid =>
    -- the part and the receipt are as they were, and the report is not there
    have hvalid' : (inspectEmbeddingTaskArtifacts prims readers context files').part = .valid := by
      subst hfiles'
      exact hvalid
    have hreceipt' := inspect_receipt_of_part prims readers context hvalid'
    have hmissing : files'.report.live = none := by
      subst hfiles'
      rfl
    have hpartRun : (quarantinePart readers context
        (inspectEmbeddingTaskArtifacts prims readers context files')).run files'.part =
          (.ok [], files'.part) := by
      unfold quarantinePart
      rw [hvalid']
      rfl
    have hreceiptRun : (quarantineUnless
        ((inspectEmbeddingTaskArtifacts prims readers context files').receipt = .valid ∧
          (decide ((inspectEmbeddingTaskArtifacts prims readers context files').part = .valid)) =
            true) context.task.receiptPath.val).run files'.receipt = (.ok [], files'.receipt) := by
      rw [hvalid', hreceipt']
      exact quarantineUnless_run_usable _ _
    exact inOrder_run hpartRun hreceiptRun (quarantineUnless_run_missing hmissing _ _)
  · -- nothing is live
    have hmissing : files'.part.live = none ∧ files'.receipt.live = none ∧
        files'.report.live = none := by
      subst hfiles'
      exact ⟨rfl, rfl, rfl⟩
    have hpartRun : (quarantinePart readers context
        (inspectEmbeddingTaskArtifacts prims readers context files')).run files'.part =
          (.ok [], files'.part) := by
      unfold quarantinePart
      rw [inspect_part_of_missing prims readers context hmissing.1, Slot.missingState]
      cases files'.part.quarantine.isSome <;> rfl
    exact inOrder_run hpartRun (quarantineUnless_run_missing hmissing.2.1 _ _)
      (quarantineUnless_run_missing hmissing.2.2 _ _)

/-- A restore undoes a quarantine of files without siblings. -/
theorem restore_run_quarantined (hfree : files.WithoutSiblings)
    (inspection : TaskArtifactInspection) : ∃ names,
      (restoreEmbeddingTaskArtifacts context).run (files.quarantined inspection) =
        (.ok names, files) := by
  have hmoved : ((files.quarantined inspection).part = files.part ∨
      (files.quarantined inspection).part = files.part.quarantineLive) ∧
      ((files.quarantined inspection).receipt = files.receipt ∨
        (files.quarantined inspection).receipt = files.receipt.quarantineLive) ∧
      ((files.quarantined inspection).report = files.report ∨
        (files.quarantined inspection).report = files.report.quarantineLive) := by
    unfold TaskFiles.quarantined
    split
    · exact ⟨Or.inl rfl, Or.inl rfl, Or.inl rfl⟩
    split
    · exact ⟨Or.inl rfl, Or.inl rfl, Or.inr rfl⟩
    · exact ⟨Or.inr rfl, Or.inr rfl, Or.inr rfl⟩
  obtain ⟨a, hpart⟩ := restorePart_run hfree.part hmoved.1 context.task.resultPath.val
  obtain ⟨b, hreceipt⟩ := restoreIfQuarantined_run hfree.receipt hmoved.2.1
    context.task.receiptPath.val
  obtain ⟨c, hreport⟩ := restoreIfQuarantined_run hfree.report hmoved.2.2
    (reportName context.task)
  exact ⟨a ++ b ++ c, inOrder_run hpart hreceipt hreport⟩

/-- What a whole action answers, from what its changes answer. -/
theorem recover_run (action : RecoveryAction) :
    (recoverEmbeddingTask prims readers context action).run files =
      match (action.changes readers context
        (inspectEmbeddingTaskArtifacts prims readers context files)).run files with
      | (.ok names, files') =>
        let inspected := inspectEmbeddingTaskArtifacts prims readers context files'
        (if action = .verify ∧ taskInspectionComplete inspected = false
          then .error .embeddingTaskIncomplete
          else .ok (context.report action inspected names), files')
      | (.error e, files') => (.error e, files') := by
  show Program.run (action.changes readers context
    (inspectEmbeddingTaskArtifacts prims readers context files) >>= _) files = _
  rw [Program.run_bind]
  cases (action.changes readers context
    (inspectEmbeddingTaskArtifacts prims readers context files)).run files with
  | mk result files' =>
    cases result with
    | error e => rfl
    | ok names =>
      show Program.run (if _ then _ else _) files' = _
      dsimp only
      split <;> rfl

/-- A quarantine of a complete task, cut off anywhere, changes nothing. -/
theorem quarantine_cut_of_complete {files' : TaskFiles Bytes}
    (hcomplete : taskInspectionComplete
      (inspectEmbeddingTaskArtifacts prims readers context files) = true)
    (hcut : (recoverEmbeddingTask prims readers context .quarantine).Cut files files') :
    files' = files := by
  have hholds : (recoverEmbeddingTask prims readers context .quarantine).Holds (· = files)
      (fun _ _ => True) files := by
    refine Program.holds_get_bind.mpr ?_
    dsimp only [RecoveryAction.changes, quarantineEmbeddingTaskArtifacts]
    rw [if_pos hcomplete]
    refine Program.holds_pure_bind.mpr (Program.holds_get_bind.mpr ?_)
    rw [if_neg (fun h => nomatch h.1)]
    exact ⟨rfl, trivial⟩
  exact (Program.holds_iff.mp hholds).2 files' hcut

end Runs

/-- **Recovery conserves evidence.** No sequence of actions, whichever of them are cut off,
loses, duplicates or overwrites a content. From files without siblings, a quarantine that
answers leaves live only what is valid together, changes nothing when the task is complete
or when it is repeated, and is undone by a restore. -/
theorem recovery_conserves_evidence :
    (∀ (files files' : TaskFiles Bytes) (actions : List RecoveryAction),
      Recoveries prims readers context files actions files' → files.Conserves files') ∧
    ∀ (files files' : TaskFiles Bytes) (report : TaskRecoveryReport), files.WithoutSiblings →
      (recoverEmbeddingTask prims readers context .quarantine).run files =
        (.ok report, files') →
      ValidTogether prims readers context files' ∧
      (taskInspectionComplete (inspectEmbeddingTaskArtifacts prims readers context files) = true →
        files' = files ∧ report.changedArtifacts = []) ∧
      (∃ report', (recoverEmbeddingTask prims readers context .quarantine).run files' =
        (.ok report', files') ∧ report'.changedArtifacts = []) ∧
      ∃ report', (recoverEmbeddingTask prims readers context .restore).run files' =
        (.ok report', files) := by
  refine ⟨fun files files' actions => recoveries_conserve prims readers context, ?_⟩
  intro files files' report hfree hrun
  rw [recover_run] at hrun
  cases hchanges : (quarantineEmbeddingTaskArtifacts readers context
      (inspectEmbeddingTaskArtifacts prims readers context files)).run files with
  | mk result moved =>
  have hchanges' : (RecoveryAction.quarantine.changes readers context
      (inspectEmbeddingTaskArtifacts prims readers context files)).run files =
        (result, moved) := hchanges
  rw [hchanges'] at hrun
  cases result with
  | error e => cases hrun
  | ok names =>
    obtain ⟨hmoved, hcomplete⟩ := quarantine_run prims readers context hfree hchanges
    have hsecond := quarantine_run_quarantined prims readers context hmoved
    obtain ⟨restored, hrestore⟩ := restore_run_quarantined context hfree
      (inspectEmbeddingTaskArtifacts prims readers context files)
    rw [← hmoved] at hrestore
    dsimp only at hrun
    rw [if_neg (fun h => nomatch h.1)] at hrun
    cases hrun
    refine ⟨?_, fun h => ⟨?_, hcomplete h⟩, ?_, ?_⟩
    · rw [hmoved]
      exact quarantined_validTogether prims readers context
    · rw [hmoved, TaskFiles.quarantined, if_pos h]
    · rw [recover_run]
      have hsecond' : (RecoveryAction.quarantine.changes readers context
        (inspectEmbeddingTaskArtifacts prims readers context files')).run files' =
          (.ok [], files') := hsecond
      rw [hsecond']
      exact ⟨_, rfl, rfl⟩
    · rw [recover_run]
      have hrestore' : (RecoveryAction.restore.changes readers context
        (inspectEmbeddingTaskArtifacts prims readers context files')).run files' =
          (.ok restored, files) := hrestore
      rw [hrestore']
      exact ⟨_, rfl⟩

end Quarantine

/-- Readers that accept every part and no receipt. -/
def sampleReaders : ArtifactReaders Unit where
  shard :=
    { openExpected := fun _ expected =>
        .ok ⟨expected.rowCount, expected.dimensions, expected.orderSha256⟩
      validateNormalization := fun _ _ => .ok ()
      size := fun _ => 64
      sha256 := fun _ => hexDigest 1 }
  receipt _ := none
  report _ := none

def sampleProfileFile : EmbeddingProfile where
  id := "profile"
  version := "1"
  sha256 := (hexDigest 1).val
  model := "model"
  dimensions := 2
  normalization := "l2"
  vectorDerivation := none
  queryInstruction := none
  queryComposition := none

def sampleContext : RecoveryContext where
  plan := samplePlan
  taskIndex := 0
  task := sampleTask {
    taskId := "", ordinalStart := 0, ordinalEnd := 1, inputSlices := []
    embeddingInputOrderSha256 := hexDigest 9, tokenCount := 2, maximumDocumentTokens := 2
    documentTokenCountsSha256 := hexDigest 9
    resultPath := ⟨"p0", isSafeRelativePath_p0⟩, receiptPath := ⟨"r0", isSafeRelativePath_r0⟩ }
  profile := sampleProfileFile
  runtime := sampleComponent "runtime"
  partQuarantinePath := ".p0.quarantine"

/-- A part that was left without its receipt. -/
def sampleOrphan : TaskFiles Unit := ⟨⟨some (), none⟩, .empty, .empty⟩

/-- An orphaned part is quarantined, and restored. -/
theorem orphaned_part_recovered : ∃ files' report,
    (recoverEmbeddingTask samplePrimitives sampleReaders sampleContext .quarantine).run
      sampleOrphan = (.ok report, files') ∧
    sampleOrphan.Conserves files' ∧
    ValidTogether samplePrimitives sampleReaders sampleContext files' ∧
    ∃ report', (recoverEmbeddingTask samplePrimitives sampleReaders sampleContext .restore).run
      files' = (.ok report', sampleOrphan) := by
  have hlaw := recovery_conserves_evidence samplePrimitives sampleReaders sampleContext
  have hrun : (recoverEmbeddingTask samplePrimitives sampleReaders sampleContext .quarantine).run
      sampleOrphan =
        (.ok (sampleContext.report .quarantine ⟨.quarantined, .absent, .absent, none⟩ ["p0"]),
          ⟨⟨none, some ()⟩, .empty, .empty⟩) := rfl
  have hcut := Program.cut_run
    (recoverEmbeddingTask samplePrimitives sampleReaders sampleContext .quarantine) sampleOrphan
  rw [hrun] at hcut
  obtain ⟨htogether, -, -, hrestored⟩ := hlaw.2 _ _ _ ⟨rfl, rfl, rfl⟩ hrun
  exact ⟨_, _, hrun, hlaw.1 _ _ _ (.cons hcut (.nil _)), htogether, hrestored⟩

end LivefireRag.Builder
