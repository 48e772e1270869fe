import LivefireRag.Cloud.Bundle
import LivefireRag.Lib.Effects
import LivefireRag.Lib.JsonAccess

/-!
# Pods and the control plane

What the launcher asks of the control plane, of the object store and of the local files,
and the two things it does with a scheduled Pod: it waits until the Pod is running and is
the one that was asked for (`admitScheduledPod`), and it deletes it
(`deletePodWithRetries`).
-/

namespace LivefireRag.Launch

open Machine Fallible Pipeline Effects

/-! ### Pods -/

inductive CleanupOutcome where
  | succeeded
  | failed
  deriving DecidableEq

inductive ControlError where
  | invalid (what : String)
  | missingApiKey (environment : String)
  | transport (operation : String)
  | unexpectedStatus (operation : String) (status : ℕ)
  | responseTooLarge (operation : String) (limit : ℕ)
  | malformedResponse (operation : String)
  | malformedJsonResponse (operation reason : String)
  | schedulerRejected (reason : String)
  | createdPodRejected (reason : String) (cleanup : CleanupOutcome)
  deriving DecidableEq

inductive PodDesiredStatus where
  | created
  | running
  | exited
  | terminated
  deriving DecidableEq

structure NetworkVolume where
  id : String
  name : String
  size : U32
  dataCenterId : String
  deriving DecidableEq

structure PodGpu where
  id : String
  count : U32
  displayName : String
  deriving DecidableEq

structure PodMachine where
  id : String
  secureCloud : Bool
  dataCenterId : String
  deriving DecidableEq

/-- Prices are floats; they are compared by `PriceArithmetic`. -/
structure Pod (Price : Type) where
  id : String
  name : String
  image : String
  adjustedCostPerHr : Price
  desiredStatus : PodDesiredStatus
  interruptible : Bool
  gpu : PodGpu
  machine : PodMachine
  networkVolume : NetworkVolume
  ports : List String
  portMappings : List (String × ℕ)
  volumeMountPath : String

structure PriceArithmetic (Price : Type) where
  isFinite : Price → Bool
  isNegative : Price → Bool
  /-- The first price is above the second. -/
  above : Price → Price → Bool
  /-- The first price is at least the second. -/
  reaches : Price → Price → Bool
  isPositive : Price → Bool
  /-- The cost of a number of nanoseconds at an hourly price. -/
  costAfter : Price → ℕ → Price
  /-- The cost of a number of milliseconds at an hourly price. -/
  costAfterMillis : Price → ℕ → Price

/-- What a created Pod is compared with. -/
structure PodCreateSpec (Price : Type) where
  name : String
  image : String
  gpuTypeId : String
  networkVolume : NetworkVolume
  maximumAdjustedHourlyPrice : Price

structure ScheduledPod where
  podId : String
  terminateAfter : String
  deriving DecidableEq

abbrev ControlResult := Except ControlError

def workspaceMount := "/workspace"

def IsControlIdentifier (value : String) : Prop :=
  value ≠ "" ∧ value.utf8ByteSize ≤ 191 ∧
    ∀ c ∈ value.toList, c.isAlphanum ∨ c = '.' ∨ c = '_' ∨ c = '-'

instance : DecidablePred IsControlIdentifier := fun value => by
  unfold IsControlIdentifier
  infer_instance

def validateIdentifier (value : String) : ControlResult Unit :=
  throwIf (¬ IsControlIdentifier value) (.invalid "RunPod identifier")

/-- The characters that trimming removes. -/
def IsWhitespace (c : Char) : Prop :=
  9 ≤ c.toNat ∧ c.toNat ≤ 13 ∨ 0x2000 ≤ c.toNat ∧ c.toNat ≤ 0x200A ∨
    c.toNat ∈ [0x20, 0x85, 0xA0, 0x1680, 0x2028, 0x2029, 0x202F, 0x205F, 0x3000]

instance : DecidablePred IsWhitespace := fun c => by unfold IsWhitespace; infer_instance

def validateName (value : String) : ControlResult Unit :=
  throwIf ((∀ c ∈ value.toList, IsWhitespace c) ∨ 191 < value.utf8ByteSize ∨
    ∃ c ∈ value.toList, Cloud.IsControl c) (.invalid "RunPod resource name")

/-- The text before the first occurrence of a separator and the text after it. -/
def splitOnce (separator text : List Char) : Option (List Char × List Char) :=
  match text with
  | [] => none
  | c :: rest =>
    if separator.isPrefixOf text then some ([], text.drop separator.length)
    else (splitOnce separator rest).map fun parts => (c :: parts.1, parts.2)

def validatePinnedImage (value : String) : ControlResult Unit := do
  let (name, digest) ← orThrow (splitOnce "@sha256:".toList value.toList)
    (.invalid "pinned container image")
  throwIf (name = [] ∨ ¬ IsDigest (String.ofList digest)) (.invalid "pinned container image")

def NetworkVolume.validate (volume : NetworkVolume) : ControlResult Unit := do
  validateIdentifier volume.id
  validateIdentifier volume.dataCenterId
  validateName volume.name
  throwIf ((volume.size : ℕ) < 1 ∨ 4000 < (volume.size : ℕ)) (.malformedResponse "network volume")

section Pods

variable {Price : Type} (prices : PriceArithmetic Price)

def Pod.validate (pod : Pod Price) : ControlResult Unit := do
  validateIdentifier pod.id
  validateName pod.name
  validatePinnedImage pod.image
  validateName pod.gpu.id
  validateName pod.gpu.displayName
  validateIdentifier pod.machine.id
  validateIdentifier pod.machine.dataCenterId
  pod.networkVolume.validate
  throwIf (¬ prices.isFinite pod.adjustedCostPerHr ∨ prices.isNegative pod.adjustedCostPerHr)
    (.malformedResponse "Pod")

/-- Why a Pod is not the one that was asked for. -/
def Pod.admissionRejection (pod : Pod Price) (requested : PodCreateSpec Price) : Option String :=
  if pod.validate prices ≠ .ok () then some "malformed Pod identity"
  else if prices.above pod.adjustedCostPerHr requested.maximumAdjustedHourlyPrice then
    some "adjusted hourly price exceeds the explicit maximum"
  else if pod.name ≠ requested.name ∨ pod.desiredStatus ≠ .running then
    some "Pod name or initial status differs from the request"
  else if ¬ pod.machine.secureCloud then some "Pod is not in Secure Cloud"
  else if pod.gpu.count ≠ 1 ∨ pod.gpu.id ≠ requested.gpuTypeId then
    some "GPU identity or count differs from the request"
  else if pod.networkVolume.id ≠ requested.networkVolume.id ∨
      pod.networkVolume.dataCenterId ≠ requested.networkVolume.dataCenterId ∨
      pod.machine.dataCenterId ≠ requested.networkVolume.dataCenterId ∨
      pod.volumeMountPath ≠ workspaceMount then
    some "network volume identity, location, or mount differs from the request"
  else if pod.image ≠ requested.image then
    some "container image differs from the pinned request"
  else if pod.interruptible then some "Pod is interruptible"
  else if pod.ports ≠ [] ∨ pod.portMappings ≠ [] then some "Pod exposes a network port"
  else none

/-- A Pod as the control plane describes it. Reading gives the Pod, or the reason why the
value has not its shape. -/
def podFromValue (readPod : Json → Except String (Pod Price)) (value : Json)
    (expectedId : String) : ControlResult (Pod Price) := do
  let pod ← (readPod value).mapError (.malformedJsonResponse "get Pod")
  orThrowAs (pod.validate prices) (.malformedResponse "get Pod")
  throwIf (pod.id ≠ expectedId) (.malformedResponse "get Pod")
  return pod

theorem podFromValue_eq_ok {readPod : Json → Except String (Pod Price)} {value : Json}
    {expectedId : String} {pod : Pod Price}
    (h : podFromValue prices readPod value expectedId = .ok pod) : pod.id = expectedId := by
  simp only [podFromValue, bind_eq_ok, exists_unit, throwIf_eq_ok, pure_eq_ok, not_not] at h
  obtain ⟨_, -, -, hid, rfl⟩ := h
  exact hid

end Pods

/-! ### Errors -/

def CleanupOutcome.text : CleanupOutcome → String
  | .succeeded => "succeeded"
  | .failed => "failed"

def ControlError.text : ControlError → String
  | .invalid what => "invalid RunPod control-plane configuration: " ++ what
  | .missingApiKey environment =>
    "RunPod API key is absent from environment variable " ++ environment
  | .transport operation => "RunPod HTTP request failed during " ++ operation
  | .unexpectedStatus operation status =>
    "RunPod " ++ operation ++ " returned unexpected HTTP status " ++ toString status
  | .responseTooLarge operation limit =>
    "RunPod " ++ operation ++ " response exceeded " ++ toString limit ++ " bytes"
  | .malformedResponse operation =>
    "RunPod " ++ operation ++ " response was not the declared JSON shape"
  | .malformedJsonResponse operation reason =>
    "RunPod " ++ operation ++ " response was not the declared JSON shape: " ++ reason
  | .schedulerRejected reason => "RunPod scheduler rejected the Pod request: " ++ reason
  | .createdPodRejected reason cleanup =>
    "created RunPod Pod was rejected: " ++ reason ++ "; cleanup " ++ cleanup.text

/-- How a watched run ends. -/
inductive Outcome where
  | completed
  | runtimeLimit
  | costLimit
  | pollFailed
  | workerFailurePublished
  | workerFailureInvalid
  | podExited
  | cleanupFailed
  | responsePublished
  | storagePollFailed
  | controlPollFailed
  | challengeUploadFailed
  | responseBindingFailed
  | responseFetchFailed
  | workerFailureBindingFailed
  | workerFailureFetchFailed
  deriving DecidableEq

def Outcome.text : Outcome → String
  | .completed => "completed"
  | .runtimeLimit => "runtime_limit"
  | .costLimit => "cost_limit"
  | .pollFailed => "poll_failed"
  | .workerFailurePublished => "worker_failure_published"
  | .workerFailureInvalid => "worker_failure_invalid"
  | .podExited => "pod_exited"
  | .cleanupFailed => "cleanup_failed"
  | .responsePublished => "response_published"
  | .storagePollFailed => "storage_poll_failed"
  | .controlPollFailed => "control_poll_failed"
  | .challengeUploadFailed => "challenge_upload_failed"
  | .responseBindingFailed => "response_binding_failed"
  | .responseFetchFailed => "response_fetch_failed"
  | .workerFailureBindingFailed => "worker_failure_binding_failed"
  | .workerFailureFetchFailed => "worker_failure_fetch_failed"

inductive CliError where
  | control (error : ControlError)
  | pipeline (error : PipelineError)
  | invalid (what : String)
  /-- A failure of the local files, of JSON, of the policy or of the object store. -/
  | other (text : String)
  | observationStage (reason : String) (cleanup : CleanupOutcome)
  | stateWrite (reason : String) (cleanup : CleanupOutcome)
  | supervisedRun (outcome : Outcome)
  deriving DecidableEq

def CliError.text : CliError → String
  | .control error => error.text
  | .pipeline (.invalid contract) => "invalid pipeline contract: " ++ contract
  | .pipeline (.json message) => "pipeline JSON failed: " ++ message
  | .pipeline (.tokenizer message) => "pipeline tokenizer failed: " ++ message
  | .pipeline .aborted => ""
  | .invalid what => "RunPod bundle input is invalid: " ++ what
  | .other text => text
  | .observationStage reason cleanup =>
    "created Pod could not receive its sealed machine observation: " ++ reason ++
      "; Pod cleanup " ++ cleanup.text
  | .stateWrite reason cleanup =>
    "created RunPod resource could not be recorded locally: " ++ reason ++
      "; resource cleanup " ++ cleanup.text
  | .supervisedRun outcome => "supervised RunPod execution ended with outcome " ++ outcome.text

abbrev CliResult := Except CliError

/-! ### What is recorded -/

structure RunpodWorkerRuntimeEvent where
  bundleFileSha256 : Digest
  workerId : String
  attemptId : String
  attemptNumber : U32
  status : String
  deriving DecidableEq

/-- What binds a Pod to its launch. -/
structure PodBinding (Price : Type) where
  podId : String
  machineId : String
  networkVolumeId : String
  requestedTerminateAfter : String
  terminationBinding : String
  scheduleReceiptSha256 : Digest
  launchReceiptSha256 : Digest
  returnedHourlyPriceUsd : Price

/-- What a watch was allowed, when it ran and how it ended. -/
structure WatchRecord (Price : Type) where
  maximumHourlyPriceUsd : Price
  maximumRuntimeSeconds : ℕ
  maximumTotalComputeUsd : Price
  startedAtMs : U64
  completedAtMs : U64
  elapsedMs : ℕ
  observedComputeUsd : Price
  outcome : Outcome
  podTermination : CleanupOutcome

structure RunpodSupervisedRunReceipt (Price : Type) extends PodBinding Price,
    WatchRecord Price where
  schemaVersion : String
  runPrefix : String
  completionKey : String
  failureKey : Option String
  workerFailure : Option RunpodWorkerRuntimeEvent
  declaredStagedInputBytes : ℕ
  observationStagedBytes : ℕ
  fetchedOutputBytes : ℕ

structure RunpodStorageChallengeReceipt (Price : Type) extends PodBinding Price,
    WatchRecord Price where
  schemaVersion : String
  executorImage : String
  runPrefix : String
  bootstrap : Cloud.CloudObjectRef
  challenge : Cloud.CloudObjectRef
  response : Cloud.CloudObjectRef
  responseVerified : Bool
  workerFailureCode : Option String
  workerFailureVerified : Bool

/-- What the launcher writes to its reserved outputs. -/
inductive Receipt (Price : Type) where
  | schedule (scheduled : ScheduledPod)
  | launch (pod : Pod Price)
  | supervisedRun (receipt : RunpodSupervisedRunReceipt Price)
  | storageChallenge (receipt : RunpodStorageChallengeReceipt Price)

/-- The machine a worker runs on, as the launcher attests it. -/
structure WorkerObservation where
  schemaVersion : String
  podId : String
  machineId : String
  accelerator : Cloud.RunpodAcceleratorIdentity
  deriving DecidableEq

/-! ### Requests -/

inductive HeadObjectState where
  | present
  | missing
  deriving DecidableEq

/-- What a launch reads from its embedding policy. -/
structure EmbeddingPolicy where
  maximumBatchItems : U32
  maximumConcurrentRequests : U32
  executorImageRepository : String
  executorImageDigest : String
  deriving DecidableEq

/-- What a launch reads from a conformance candidate. -/
structure ConformanceCandidate where
  executorImageRepository : String
  executorImageDigest : String
  accelerator : Cloud.RunpodAcceleratorIdentity
  deriving DecidableEq

structure ExecutorImage where
  repository : String
  digest : String
  deriving DecidableEq

structure StorageChallengeFailure where
  code : String
  object : Cloud.CloudObjectRef
  deriving DecidableEq

/-- A storage challenge that is ready to be uploaded. -/
structure PreparedStorageChallenge where
  bootstrap : Cloud.CloudObjectRef
  challenge : Cloud.CloudObjectRef
  response : Cloud.CloudObjectRef
  failures : List StorageChallengeFailure
  deriving DecidableEq

inductive Request (Price : Type) where
  /-- The control plane. -/
  | schedulePod (specification : PodCreateSpec Price) (terminateAfter : String)
  | getPod (id : String)
  | deletePod (id : String)
  /-- The object store. -/
  | headObject (runPrefix : SafeRelativePath) (object : Cloud.CloudObjectRef)
  | putObject (runPrefix : SafeRelativePath) (object : Cloud.CloudObjectRef)
  | headWorkerKey (runPrefix key : SafeRelativePath)
  | getWorkerRuntimeEvent (runPrefix key : SafeRelativePath)
  | getWorkerOutput (runPrefix : SafeRelativePath) (object : Cloud.CloudObjectRef)
  | stageObservation (runPrefix : String) (key : SafeRelativePath)
      (observation : WorkerObservation)
  /-- The local files. -/
  | reserve (path : String)
  | write (path : String) (receipt : Receipt Price)
  | digestFile (path : String)
  | loadBundle (root : String)
  | loadPolicy (root : String)
  | loadVolume (path : String)
  | loadCandidate (root : String)
  | loadExecutorImageBuild (path : String)
  | conformanceInputObjects (root : String)
  | prepareStorageChallenge (image : String)
  | responseMatches (prepared : PreparedStorageChallenge)
  | failureMatches (failure : StorageChallengeFailure)
  | temporaryDirectory
  | print (receipt : Receipt Price)
  /-- The environment. -/
  | connectControl (apiKeyEnvironment : String)
  | connectStore (volume : NetworkVolume) (accessKeyEnvironment secretKeyEnvironment : String)
  | terminationDeadline (runtimeSeconds : ℕ)
  | instant
  | unixTimeMs

def Reply {Price : Type} : Request Price → Type
  | .schedulePod _ _ => ControlResult String
  | .getPod _ => ControlResult Json
  | .deletePod _ => ControlResult Unit
  | .headObject _ _ => CliResult HeadObjectState
  | .putObject _ _ => CliResult Unit
  | .headWorkerKey _ _ => CliResult HeadObjectState
  | .getWorkerRuntimeEvent _ _ => CliResult RunpodWorkerRuntimeEvent
  | .getWorkerOutput _ _ => CliResult Unit
  | .stageObservation _ _ _ => CliResult ℕ
  | .reserve _ => CliResult Unit
  | .write _ _ => CliResult Unit
  | .digestFile _ => CliResult (ℕ × Digest)
  | .loadBundle _ => CliResult Cloud.RunpodEmbeddingBundle
  | .loadPolicy _ => CliResult EmbeddingPolicy
  | .loadVolume _ => CliResult NetworkVolume
  | .loadCandidate _ => CliResult ConformanceCandidate
  | .loadExecutorImageBuild _ => CliResult ExecutorImage
  | .conformanceInputObjects _ => CliResult (List Cloud.CloudObjectRef)
  | .prepareStorageChallenge _ => CliResult PreparedStorageChallenge
  | .responseMatches _ => CliResult Bool
  | .failureMatches _ => CliResult Bool
  | .temporaryDirectory => CliResult Unit
  | .print _ => CliResult Unit
  | .connectControl _ => ControlResult Unit
  | .connectStore _ _ _ => CliResult Unit
  | .terminationDeadline _ => CliResult String
  | .instant => ℕ
  | .unixTimeMs => U64

/-! ### The control client -/

/-- How the descriptions of a Pod are read: its status alone, and the whole Pod. -/
structure PodReading (Price : Type) where
  readStatus : Json → Except String (String × PodDesiredStatus)
  readPod : Json → Except String (Pod Price)

section Client

open Effects.Program

variable {Price : Type} (prices : PriceArithmetic Price) (reading : PodReading Price)

abbrev Control (Price α : Type) := Program (@Reply Price) ControlError α

/-- The identifier that the scheduler returned is checked before it is used. -/
def scheduledPod (reply : ControlResult String) (terminateAfter : String) :
    ControlResult ScheduledPod := do
  let id ← reply
  orThrowAs (validateIdentifier id) (.malformedResponse "schedule Pod with termination")
  return { podId := id, terminateAfter := terminateAfter }

def schedulePodWithTermination (specification : PodCreateSpec Price) (terminateAfter : String) :
    Control Price ScheduledPod := do
  let reply ← request (Request.schedulePod specification terminateAfter)
  lift (scheduledPod reply terminateAfter)

theorem scheduledPod_ok {id : String} (h : IsControlIdentifier id) (terminateAfter : String) :
    scheduledPod (.ok id) terminateAfter =
      .ok { podId := id, terminateAfter := terminateAfter } := by
  have hvalid : validateIdentifier id = .ok () := throwIf_eq_ok.mpr fun hid => hid h
  rw [scheduledPod, ok_bind, hvalid]
  rfl

def podStatus (id : String) (value : Json) : ControlResult (PodDesiredStatus × Json) := do
  let (statusId, status) ← (reading.readStatus value).mapError
    (.malformedJsonResponse "get Pod status")
  throwIf (statusId ≠ id) (.malformedResponse "get Pod status")
  return (status, value)

def getPodValue (id : String) : Control Price (PodDesiredStatus × Json) := do
  lift (validateIdentifier id)
  let value ← lift (← request (Request.getPod id))
  lift (podStatus reading id value)

def getPod (id : String) : Control Price (Pod Price) := do
  let (_, value) ← getPodValue reading id
  lift (podFromValue prices reading.readPod value id)

def deletePod (id : String) : Control Price Unit := do
  lift (validateIdentifier id)
  lift (← request (Request.deletePod id))

def cleanupOutcome (deleted : ControlResult Unit) : CleanupOutcome :=
  if deleted = .ok () then .succeeded else .failed

/-- Delete the Pod and give up. -/
def rejectPod {α : Type} (id : String) (error : CleanupOutcome → ControlError) :
    Control Price α := do
  let deleted ← (deletePod id).attempt
  throw (error (cleanupOutcome deleted))

/-- A Pod that has left the created state is admitted, refused, or not running yet. -/
def admitPod (scheduled : ScheduledPod) (specification : PodCreateSpec Price) (value : Json) :
    Control Price (Option (Pod Price)) :=
  match podFromValue prices reading.readPod value scheduled.podId with
  | .error e => rejectPod scheduled.podId fun _ => e
  | .ok pod =>
    match pod.admissionRejection prices specification with
    | some reason => rejectPod pod.id (.createdPodRejected reason)
    | none => pure (if pod.desiredStatus = .running then some pod else none)

def observeScheduledPod (scheduled : ScheduledPod) (specification : PodCreateSpec Price) :
    Control Price (Option (Pod Price)) := do
  match ← (getPodValue reading scheduled.podId).attempt with
  | .ok (status, value) =>
    -- what a created Pod runs on is not known before it is running
    if status = .created then pure none
    else admitPod prices reading scheduled specification value
  | .error (.unexpectedStatus _ 404) => pure none
  | .error e => rejectPod scheduled.podId fun _ => e

def admissionDeadlineNanos : ℕ := 180 * 10 ^ 9

/-- One turn of the wait for a Pod. -/
def admissionTurn (started : ℕ) (scheduled : ScheduledPod) (specification : PodCreateSpec Price) :
    Control Price (Option (Pod Price)) := do
  match ← observeScheduledPod prices reading scheduled specification with
  | some pod => pure (some pod)
  | none => do
    let now : ℕ ← request Request.instant
    if admissionDeadlineNanos ≤ now - started then
      rejectPod scheduled.podId (.createdPodRejected
        "Pod did not reach running status before the admission deadline")
    else pure none

def admitScheduledPod (turns : ℕ) (scheduled : ScheduledPod)
    (specification : PodCreateSpec Price) : Control Price (Pod Price) := do
  let started ← request Request.instant
  loop (admissionTurn prices reading started scheduled specification) turns

end Client

end LivefireRag.Launch
