import LivefireRag.Launch.Control

/-!
# The commands that create a Pod

Each of them prepares a launch, schedules one Pod, waits until it is admitted, records what
it has learned of it, watches it until its output is there or a limit is reached, and
deletes it: `runPodCreate` for the workers of a bundle, `conformancePodCreate` for the
conformance run, and `storageChallengeCreate` for the storage challenge.

A loop runs for a number of turns; the pauses between the turns are left out.
-/

namespace LivefireRag.Launch

open Machine Fallible Pipeline Cloud Effects Effects.Program

/-! ### Options -/

/-- The options that the three commands share. -/
structure LaunchOptions (Price : Type) where
  volume : String
  image : String
  gpuTypeId : String
  name : String
  runPrefix : String
  maximumHourlyPrice : Price
  maximumRuntimeSeconds : ℕ
  maximumTotalComputeUsd : Price
  apiKeyEnvironment : String
  accessKeyEnvironment : String
  secretKeyEnvironment : String
  out : Option String
  launchOut : Option String
  createOut : Option String

structure PodLaunchOptions (Price : Type) extends LaunchOptions Price where
  bundle : String
  workerId : String
  assignmentCount : U32
  attemptId : String
  attemptNumber : U32
  batchSize : ℕ
  requestsInFlight : ℕ

structure ConformanceLaunchOptions (Price : Type) extends LaunchOptions Price where
  candidate : String
  runId : String

structure StorageChallengeOptions (Price : Type) extends LaunchOptions Price where
  executorImageBuild : String

/-- Where the receipts of a launch are written. -/
structure ReceiptPaths where
  output : String
  launch : String
  create : String
  deriving DecidableEq

/-- What is known when a Pod is scheduled. -/
structure PreparedLaunch (Price : Type) where
  paths : ReceiptPaths
  specification : PodCreateSpec Price
  started : ℕ
  startedAtMs : U64
  requestedTerminateAfter : String
  declaredStagedInputBytes : ℕ
  /-- The key of the object that ends the watch well. -/
  completionKey : String

/-- What is known when a Pod is admitted and recorded. -/
structure LaunchedPod (Price : Type) where
  pod : Pod Price
  scheduleReceiptSha256 : Digest
  launchReceiptSha256 : Digest

def bundleFile (root : String) : String := root ++ "/bundle.json"

section Commands

variable {Price : Type} (prices : PriceArithmetic Price) (reading : PodReading Price)

abbrev Step (Price α : Type) := Program (@Reply Price) CliError α

/-- An operation of the control client. -/
def control {α : Type} (p : Control Price α) : Step Price α := do
  let result ← p.attempt
  lift (result.mapError .control)

def safePath (path : String) : CliResult SafeRelativePath :=
  (SafeRelativePath.new path).mapError .pipeline

def digestFile (path : String) : Step Price (ℕ × Digest) := do
  lift (← request (Request.digestFile path))

def elapsedSince (started : ℕ) : Step Price ℕ := do
  let now : ℕ ← request Request.instant
  return now - started

/-! ### Cleaning up -/

def deleteAttempts (podId : String) : ℕ → Step Price Bool
  | 0 => pure false
  | attempts + 1 => do
    match ← (deletePod podId).attempt with
    | .ok () => pure true
    | .error (.unexpectedStatus "delete Pod" 404) => pure true
    | .error _ => deleteAttempts podId attempts

def deletePodWithRetries (podId : String) : Step Price Bool := deleteAttempts podId 10

def cleanUp (podId : String) : Step Price CleanupOutcome := do
  let deleted ← deletePodWithRetries podId
  return if deleted then .succeeded else .failed

/-- Write a receipt of a Pod that exists. -/
def recordOrDelete (path : String) (receipt : Receipt Price) (podId : String) :
    Step Price Unit := do
  match ← request (Request.write path receipt) with
  | .ok () => pure ()
  | .error e => do
    let cleanup ← cleanUp podId
    throw (.stateWrite e.text cleanup)

def stageOrDelete (stage : Step Price ℕ) (podId : String) : Step Price ℕ := do
  match ← stage.attempt with
  | .ok bytes => pure bytes
  | .error e => do
    let cleanup ← cleanUp podId
    throw (.observationStage e.text cleanup)

/-- Record a scheduled Pod, admit it and record what it is. -/
def recordAndAdmit (turns : ℕ) (prepared : PreparedLaunch Price) (scheduled : ScheduledPod) :
    Step Price (LaunchedPod Price) := do
  recordOrDelete prepared.paths.create (.schedule scheduled) scheduled.podId
  let (_, scheduleReceiptSha256) ← digestFile prepared.paths.create
  let pod ← control (admitScheduledPod prices reading turns scheduled prepared.specification)
  recordOrDelete prepared.paths.launch (.launch pod) pod.id
  let (_, launchReceiptSha256) ← digestFile prepared.paths.launch
  return { pod, scheduleReceiptSha256, launchReceiptSha256 }

/-- From the scheduling of a Pod to its launch receipt. -/
def launchPod (turns : ℕ) (prepared : PreparedLaunch Price) : Step Price (LaunchedPod Price) := do
  let scheduled ← control
    (schedulePodWithTermination prepared.specification prepared.requestedTerminateAfter)
  recordAndAdmit prices reading turns prepared scheduled

/-! ### Preparing a launch -/

/-- The receipt paths of a command; `supervised` names its last receipt in the refusal. -/
def receiptPaths (options : LaunchOptions Price) (command supervised : String) :
    CliResult ReceiptPaths := do
  let output ← orThrow options.out (.invalid (command ++ " requires --out"))
  let launch ← orThrow options.launchOut (.invalid (command ++ " requires --launch-out"))
  let create ← orThrow options.createOut (.invalid (command ++ " requires --create-out"))
  throwIf (launch = output ∨ create = output ∨ create = launch)
    (.invalid ("schedule, launch, and " ++ supervised ++ " receipt paths must differ"))
  return { output, launch, create }

def reserveReceipts (paths : ReceiptPaths) : Step Price Unit := do
  lift (← request (Request.reserve paths.output))
  lift (← request (Request.reserve paths.launch))
  lift (← request (Request.reserve paths.create))

def validateWatchdogLimits (options : LaunchOptions Price) : CliResult Unit :=
  throwIf (options.maximumRuntimeSeconds < 300 ∨ 604800 < options.maximumRuntimeSeconds ∨
      ¬ prices.isFinite options.maximumHourlyPrice ∨
      ¬ prices.isPositive options.maximumHourlyPrice ∨
      ¬ prices.isFinite options.maximumTotalComputeUsd ∨
      ¬ prices.isPositive options.maximumTotalComputeUsd)
    (.invalid "watchdog runtime, hourly price, or total compute USD limit is invalid")

def LaunchOptions.specification (options : LaunchOptions Price) (volume : NetworkVolume) :
    PodCreateSpec Price :=
  { name := options.name
    image := options.image
    gpuTypeId := options.gpuTypeId
    networkVolume := volume
    maximumAdjustedHourlyPrice := options.maximumHourlyPrice }

/-- The consecutive assignments that one Pod executes. -/
def selectedAssignments (bundle : RunpodEmbeddingBundle) (workerId : String)
    (assignmentCount : U32) : CliResult (List RunpodWorkerAssignment) := do
  let start ← orThrow (bundle.assignments.findIdx? fun a => a.workerId = workerId)
    (.invalid "worker ID is not assigned by the bundle")
  throwIf ((assignmentCount : ℕ) = 0 ∨ bundle.assignments.length < start + (assignmentCount : ℕ))
    (.invalid "worker assignment range exceeds the bundle")
  return (bundle.assignments.drop start).take assignmentCount

def bundleInputObjects (bundle : RunpodEmbeddingBundle) : List CloudObjectRef :=
  let artifacts := bundle.artifacts
  [artifacts.preparedManifest.object, artifacts.embeddingPlan.object,
    artifacts.documentTokenCounts, artifacts.embeddingProfile.object,
    artifacts.executorImageBuild.object, artifacts.executableTokenizer.object,
    artifacts.conformanceFixture, artifacts.queryPlan, artifacts.workerBinary.object,
    artifacts.modelManifest.object] ++
  artifacts.modelObjects ++ artifacts.preparedDocuments.map (·.object)

def checkedObjectBytes (bytes : List ℕ) : CliResult ℕ :=
  bytes.foldlM (fun total size => do
    throwIf (2 ^ 64 ≤ total + size) (.invalid "declared staged byte count overflowed")
    return total + size) 0

def podSpecification (options : PodLaunchOptions Price) : Step Price (PodCreateSpec Price) := do
  let bundle ← lift (← request (Request.loadBundle options.bundle))
  lift (validateWatchdogLimits prices options.toLaunchOptions)
  let selected ← lift (selectedAssignments bundle options.workerId options.assignmentCount)
  lift (throwIf (selected = []) (.invalid "worker assignment range is empty"))
  lift (throwIf ((options.attemptNumber : ℕ) = 0 ∨ options.attemptId = "")
    (.invalid "attempt identity is invalid"))
  let _ ← lift (safePath options.runPrefix)
  let volume ← lift (← request (Request.loadVolume options.volume))
  let policy ← lift (← request (Request.loadPolicy options.bundle))
  lift (throwIf (options.batchSize = 0 ∨ (policy.maximumBatchItems : ℕ) < options.batchSize ∨
      options.requestsInFlight = 0 ∨
      (policy.maximumConcurrentRequests : ℕ) < options.requestsInFlight)
    (.invalid "Pod batch size or request concurrency exceeds the measured embedding policy"))
  lift (throwIf
    (options.image ≠ policy.executorImageRepository ++ "@" ++ policy.executorImageDigest)
    (.invalid "Pod image does not match the measured embedding policy"))
  return options.specification volume

def conformancePodSpecification (options : ConformanceLaunchOptions Price) :
    Step Price (PodCreateSpec Price × ConformanceCandidate) := do
  let candidate ← lift (← request (Request.loadCandidate options.candidate))
  lift (validateWatchdogLimits prices options.toLaunchOptions)
  let volume ← lift (← request (Request.loadVolume options.volume))
  lift (throwIf
    (options.image ≠ candidate.executorImageRepository ++ "@" ++ candidate.executorImageDigest)
    (.invalid "Pod image does not match the conformance candidate"))
  let _ ← lift (safePath options.runPrefix)
  let _ ← lift (safePath ("conformance/results/" ++ options.runId ++ ".json"))
  return (options.specification volume, candidate)

def storageChallengeSpecification (options : StorageChallengeOptions Price) :
    Step Price (PodCreateSpec Price) := do
  lift (validateWatchdogLimits prices options.toLaunchOptions)
  let image ← lift (← request (Request.loadExecutorImageBuild options.executorImageBuild))
  lift (throwIf (options.image ≠ image.repository ++ "@" ++ image.digest)
    (.invalid "storage challenge image differs from the sealed executor build"))
  let _ ← lift (safePath options.runPrefix)
  let volume ← lift (← request (Request.loadVolume options.volume))
  return options.specification volume

def connectClients (options : LaunchOptions Price) (volume : NetworkVolume) :
    Step Price Unit := do
  let connected ← request (Request.connectControl options.apiKeyEnvironment)
  lift (connected.mapError .control)
  lift (← request (Request.connectStore volume options.accessKeyEnvironment
    options.secretKeyEnvironment))

/-- The clocks are read last. -/
def prepareLaunch (options : LaunchOptions Price) (paths : ReceiptPaths)
    (specification : PodCreateSpec Price) (declaredStagedInputBytes : ℕ)
    (completionKey : String) : Step Price (PreparedLaunch Price) := do
  let started : ℕ ← request Request.instant
  let startedAtMs : U64 ← request Request.unixTimeMs
  let requestedTerminateAfter ←
    lift (← request (Request.terminationDeadline options.maximumRuntimeSeconds))
  return {
    paths := paths
    specification, started, startedAtMs, requestedTerminateAfter, declaredStagedInputBytes
    completionKey }

/-! ### Watching a Pod -/

/-- The first check that ends the watch. -/
def firstEnding {β : Type} : List (Step Price (Option β)) → Step Price (Option β)
  | [] => pure none
  | check :: rest => do
    match ← check with
    | some ending => pure (some ending)
    | none => firstEnding rest

def checkLimits (pod : Pod Price) (started maximumRuntimeSeconds : ℕ)
    (maximumTotalComputeUsd : Price) : Step Price (Option Outcome) := do
  let elapsed ← elapsedSince started
  return if maximumRuntimeSeconds * 10 ^ 9 ≤ elapsed then some .runtimeLimit
    else if prices.reaches (prices.costAfter pod.adjustedCostPerHr elapsed)
      maximumTotalComputeUsd then some .costLimit
    else none

/-- The watch ends with `present` when the object is there. -/
def checkKey (runPrefix key : SafeRelativePath) (present failed : Outcome) :
    Step Price (Option Outcome) := do
  match ← request (Request.headWorkerKey runPrefix key) with
  | .ok .present => pure (some present)
  | .ok .missing => pure none
  | .error _ => pure (some failed)

def checkPod (podId : String) (failed : Outcome) : Step Price (Option Outcome) := do
  match ← (getPod prices reading podId).attempt with
  | .ok observed => pure (if observed.desiredStatus = .running then none else some .podExited)
  | .error _ => pure (some failed)

/-- A check with nothing more to report than the outcome. -/
def plainly {β : Type} (check : Step Price (Option Outcome)) :
    Step Price (Option (Outcome × Option β)) := do
  let ending ← check
  return ending.map fun outcome => (outcome, none)

structure WorkerFailureExpectation where
  key : SafeRelativePath
  bundleFileSha256 : Digest
  workerId : String
  attemptId : String
  attemptNumber : U32
  deriving DecidableEq

structure SupervisionRequest (Price : Type) where
  runPrefix : SafeRelativePath
  completionKey : SafeRelativePath
  workerFailure : Option WorkerFailureExpectation
  observationStagedBytes : ℕ

/-- The event is the failure of the expected attempt. -/
def WorkerFailureExpectation.Met (expected : WorkerFailureExpectation)
    (event : RunpodWorkerRuntimeEvent) : Prop :=
  event.bundleFileSha256 = expected.bundleFileSha256 ∧ event.workerId = expected.workerId ∧
    event.attemptId = expected.attemptId ∧ event.attemptNumber = expected.attemptNumber ∧
    event.status = "failed"

instance (expected : WorkerFailureExpectation) : DecidablePred expected.Met := fun event => by
  unfold WorkerFailureExpectation.Met
  infer_instance

def readWorkerFailure (runPrefix : SafeRelativePath) (expected : WorkerFailureExpectation) :
    Step Price (Outcome × Option RunpodWorkerRuntimeEvent) := do
  match ← request (Request.getWorkerRuntimeEvent runPrefix expected.key) with
  | .ok event =>
    pure (if expected.Met event then (.workerFailurePublished, some event)
      else (.workerFailureInvalid, none))
  | .error _ => pure (.workerFailureInvalid, none)

def checkWorkerFailure (runPrefix : SafeRelativePath) :
    Option WorkerFailureExpectation →
    Step Price (Option (Outcome × Option RunpodWorkerRuntimeEvent))
  | none => pure none
  | some expected => do
    match ← request (Request.headWorkerKey runPrefix expected.key) with
    | .ok .present => do
      let ending ← readWorkerFailure runPrefix expected
      return some ending
    | .ok .missing => pure none
    | .error _ => pure (some (.pollFailed, none))

def supervisionTurn (options : LaunchOptions Price) (started : ℕ) (pod : Pod Price)
    (supervision : SupervisionRequest Price) :
    Step Price (Option (Outcome × Option RunpodWorkerRuntimeEvent)) :=
  firstEnding
    [plainly (checkLimits prices pod started options.maximumRuntimeSeconds
        options.maximumTotalComputeUsd),
      plainly (checkKey supervision.runPrefix supervision.completionKey .completed .pollFailed),
      checkWorkerFailure supervision.runPrefix supervision.workerFailure,
      plainly (checkPod prices reading pod.id .pollFailed)]

/-- How a watch ended, once the Pod has been deleted. -/
structure Watchdog (β : Type) where
  outcome : Outcome
  failure : Option β
  podTermination : CleanupOutcome
  elapsedMs : ℕ
  completedAtMs : U64

/-- Watch a Pod turn by turn, then delete it. -/
def watchAndDelete {β : Type} (turns : ℕ) (turn : Step Price (Option (Outcome × Option β)))
    (podId : String) (started : ℕ) : Step Price (Watchdog β) := do
  let (outcome, failure) ← loop turn turns
  let podTermination ← cleanUp podId
  let elapsed ← elapsedSince started
  let completedAtMs : U64 ← request Request.unixTimeMs
  return {
    outcome := if podTermination = .succeeded then outcome else .cleanupFailed
    failure, podTermination, completedAtMs
    elapsedMs := min (elapsed / 10 ^ 6) (2 ^ 64 - 1) }

def LaunchedPod.binding (launched : LaunchedPod Price) (prepared : PreparedLaunch Price) :
    PodBinding Price :=
  { podId := launched.pod.id
    machineId := launched.pod.machine.id
    networkVolumeId := launched.pod.networkVolume.id
    requestedTerminateAfter := prepared.requestedTerminateAfter
    terminationBinding := "requested_unobservable"
    scheduleReceiptSha256 := launched.scheduleReceiptSha256
    launchReceiptSha256 := launched.launchReceiptSha256
    returnedHourlyPriceUsd := launched.pod.adjustedCostPerHr }

def Watchdog.record {β : Type} (watchdog : Watchdog β) (options : LaunchOptions Price)
    (prepared : PreparedLaunch Price) (pod : Pod Price) (outcome : Outcome) : WatchRecord Price :=
  { maximumHourlyPriceUsd := options.maximumHourlyPrice
    maximumRuntimeSeconds := options.maximumRuntimeSeconds
    maximumTotalComputeUsd := options.maximumTotalComputeUsd
    startedAtMs := prepared.startedAtMs
    completedAtMs := watchdog.completedAtMs
    elapsedMs := watchdog.elapsedMs
    observedComputeUsd := prices.costAfterMillis pod.adjustedCostPerHr watchdog.elapsedMs
    outcome
    podTermination := watchdog.podTermination }

def supervisePod (turns : ℕ) (options : LaunchOptions Price) (prepared : PreparedLaunch Price)
    (launched : LaunchedPod Price) (supervision : SupervisionRequest Price) :
    Step Price (RunpodSupervisedRunReceipt Price) := do
  let watchdog ← watchAndDelete turns
    (supervisionTurn prices reading options prepared.started launched.pod supervision)
    launched.pod.id prepared.started
  return {
    toPodBinding := launched.binding prepared
    toWatchRecord := watchdog.record prices options prepared launched.pod watchdog.outcome
    schemaVersion := "livefire.rag.runpod-supervised-run/1"
    runPrefix := supervision.runPrefix.val
    completionKey := supervision.completionKey.val
    failureKey := supervision.workerFailure.map (·.key.val)
    workerFailure := watchdog.failure
    declaredStagedInputBytes := prepared.declaredStagedInputBytes
    observationStagedBytes := supervision.observationStagedBytes
    fetchedOutputBytes := 0 }

/-- The command succeeds if the run completed and its Pod is gone. -/
def conclude (path : String) (receipt : Receipt Price) (record : WatchRecord Price) :
    Step Price Unit := do
  lift (← request (Request.write path receipt))
  lift (← request (Request.print receipt))
  lift (throwIf (¬ (record.outcome = .completed ∧ record.podTermination = .succeeded))
    (.supervisedRun record.outcome))

/-! ### The workers of a bundle -/

def returnedAccelerator (expected : RunpodAcceleratorIdentity) (requestedGpuTypeId : String)
    (pod : Pod Price) : CliResult RunpodAcceleratorIdentity := do
  throwIf (pod.gpu.id ≠ requestedGpuTypeId ∨ pod.gpu.displayName ≠ expected.model ∨
      pod.gpu.count ≠ expected.count)
    (.invalid <| "returned Pod GPU type, display name, or count differs from the " ++
      "sealed accelerator")
  return { expected with model := pod.gpu.displayName, count := pod.gpu.count }

def workerObservation (pod : Pod Price) (accelerator : RunpodAcceleratorIdentity) :
    WorkerObservation :=
  { schemaVersion := "livefire.rag.runpod-worker-observation/1"
    podId := pod.id
    machineId := pod.machine.id
    accelerator }

/-- The files of an attempt below the run prefix. -/
def PodLaunchOptions.attemptFile (options : PodLaunchOptions Price) (name : String) : String :=
  "runtime/" ++ options.workerId ++ "/attempts/" ++ options.attemptId ++ "/" ++ name

/-- Attest the machine of an admitted Pod and send the attestation to it. -/
def stageObservation (options : LaunchOptions Price) (expected : RunpodAcceleratorIdentity)
    (observationKey : String) (pod : Pod Price) : Step Price ℕ := do
  let accelerator ← lift (returnedAccelerator expected options.gpuTypeId pod)
  let key ← lift (safePath observationKey)
  lift (← request (Request.stageObservation options.runPrefix key
    (workerObservation pod accelerator)))

def stageWorkerObservation (options : PodLaunchOptions Price) (pod : Pod Price) :
    Step Price ℕ := do
  let bundle ← lift (← request (Request.loadBundle options.bundle))
  stageObservation options.toLaunchOptions bundle.execution.accelerator
    (options.attemptFile "observation.json") pod

def preparePod (options : PodLaunchOptions Price) : Step Price (PreparedLaunch Price) := do
  let paths ← lift (receiptPaths options.toLaunchOptions "Pod create" "supervised")
  reserveReceipts paths
  let specification ← podSpecification prices options
  let bundle ← lift (← request (Request.loadBundle options.bundle))
  let selected ← lift (selectedAssignments bundle options.workerId options.assignmentCount)
  let last ← lift (orThrow selected.getLast? (.invalid "worker assignment range is empty"))
  let (bundleBytes, _) ← digestFile (bundleFile options.bundle)
  let declared ← lift (checkedObjectBytes
    ((bundleInputObjects bundle).map (fun object => (object.bytes : ℕ)) ++ [bundleBytes]))
  connectClients options.toLaunchOptions specification.networkVolume
  prepareLaunch options.toLaunchOptions paths specification declared
    ("attempts/" ++ last.workerId ++ "/completed.json")

/-- What the watch of the workers needs is read once more before it begins. -/
def superviseWorkers (turns : ℕ) (options : PodLaunchOptions Price)
    (prepared : PreparedLaunch Price) (launched : LaunchedPod Price) : Step Price Unit := do
  let observationStagedBytes ← stageOrDelete (stageWorkerObservation options launched.pod)
    launched.pod.id
  let runPrefix ← lift (safePath options.runPrefix)
  let completionKey ← lift (safePath prepared.completionKey)
  let failureKey ← lift (safePath (options.attemptFile "failed.json"))
  let (_, bundleFileSha256) ← digestFile (bundleFile options.bundle)
  let receipt ← supervisePod prices reading turns options.toLaunchOptions prepared launched
    { runPrefix := runPrefix
      completionKey := completionKey
      workerFailure := some
        { key := failureKey
          bundleFileSha256 := bundleFileSha256
          workerId := options.workerId
          attemptId := options.attemptId
          attemptNumber := options.attemptNumber }
      observationStagedBytes := observationStagedBytes }
  conclude prepared.paths.output (.supervisedRun receipt) receipt.toWatchRecord

/-! ### The conformance run -/

def stageConformanceObservation (options : ConformanceLaunchOptions Price)
    (candidate : ConformanceCandidate) (pod : Pod Price) : Step Price ℕ :=
  stageObservation options.toLaunchOptions candidate.accelerator
    ("runtime/conformance/" ++ options.runId ++ "/observation.json") pod

def prepareConformancePod (options : ConformanceLaunchOptions Price) :
    Step Price (PreparedLaunch Price × ConformanceCandidate) := do
  let paths ← lift (receiptPaths options.toLaunchOptions "conformance Pod create" "supervised")
  reserveReceipts paths
  let (specification, candidate) ← conformancePodSpecification prices options
  let objects ← lift (← request (Request.conformanceInputObjects options.candidate))
  let (candidateBytes, _) ← digestFile (options.candidate ++ "/candidate.json")
  let declared ← lift (checkedObjectBytes
    (objects.map (fun object => (object.bytes : ℕ)) ++ [candidateBytes]))
  connectClients options.toLaunchOptions specification.networkVolume
  let prepared ← prepareLaunch options.toLaunchOptions paths specification declared
    ("conformance/results/" ++ options.runId ++ ".json")
  return (prepared, candidate)

def superviseConformance (turns : ℕ) (options : ConformanceLaunchOptions Price)
    (candidate : ConformanceCandidate) (prepared : PreparedLaunch Price)
    (launched : LaunchedPod Price) : Step Price Unit := do
  let observationStagedBytes ← stageOrDelete
    (stageConformanceObservation options candidate launched.pod) launched.pod.id
  let runPrefix ← lift (safePath options.runPrefix)
  let completionKey ← lift (safePath prepared.completionKey)
  let receipt ← supervisePod prices reading turns options.toLaunchOptions prepared launched
    { runPrefix := runPrefix
      completionKey := completionKey
      workerFailure := none
      observationStagedBytes := observationStagedBytes }
  conclude prepared.paths.output (.supervisedRun receipt) receipt.toWatchRecord

/-! ### The storage challenge -/

/-- What a storage challenge has when its Pod is scheduled. -/
structure ChallengeLaunch where
  runPrefix : SafeRelativePath
  challenge : PreparedStorageChallenge

/-- The objects of a challenge must not be there yet. -/
def checkUnused (runPrefix : SafeRelativePath) : List CloudObjectRef → Step Price Unit
  | [] => pure ()
  | object :: rest => do
    let state ← lift (← request (Request.headObject runPrefix object))
    lift (throwIf (state ≠ .missing) (.invalid "storage challenge run prefix is not unused"))
    checkUnused runPrefix rest

def PreparedStorageChallenge.transferObjects (challenge : PreparedStorageChallenge) :
    List CloudObjectRef :=
  [challenge.bootstrap, challenge.challenge, challenge.response] ++
    challenge.failures.map (·.object)

def prepareChallenge (options : StorageChallengeOptions Price) :
    Step Price (PreparedLaunch Price × ChallengeLaunch) := do
  let challenge ← lift (← request (Request.prepareStorageChallenge options.image))
  let specification ← storageChallengeSpecification prices options
  let paths ← lift
    (receiptPaths options.toLaunchOptions "storage challenge create" "storage challenge")
  reserveReceipts paths
  let runPrefix ← lift (safePath options.runPrefix)
  connectClients options.toLaunchOptions specification.networkVolume
  checkUnused runPrefix challenge.transferObjects
  lift (← request (Request.putObject runPrefix challenge.bootstrap))
  let prepared ← prepareLaunch options.toLaunchOptions paths specification 0
    challenge.response.key.val
  return (prepared, { runPrefix, challenge })

/-- The first failure the workers have published, or a poll that failed. -/
def checkFailureKeys (runPrefix : SafeRelativePath) :
    List StorageChallengeFailure → Step Price (Option (Outcome × Option String))
  | [] => pure none
  | failure :: rest => do
    match ← request (Request.headWorkerKey runPrefix failure.object.key) with
    | .ok .present => pure (some (.workerFailurePublished, some failure.code))
    | .ok .missing => checkFailureKeys runPrefix rest
    | .error _ => pure (some (.storagePollFailed, none))

def challengeTurn (options : LaunchOptions Price) (started : ℕ) (pod : Pod Price)
    (launch : ChallengeLaunch) : Step Price (Option (Outcome × Option String)) :=
  firstEnding
    [plainly (checkLimits prices pod started options.maximumRuntimeSeconds
        options.maximumTotalComputeUsd),
      plainly (checkKey launch.runPrefix launch.challenge.response.key .responsePublished
        .storagePollFailed),
      checkFailureKeys launch.runPrefix launch.challenge.failures,
      plainly (checkPod prices reading pod.id .controlPollFailed)]

/-- A published object is fetched and compared with what was expected. -/
def verifyOutput (runPrefix : SafeRelativePath) (object : CloudObjectRef)
    (compare : Step Price (CliResult Bool)) (verified mismatched unfetched : Outcome) :
    Step Price (Outcome × Bool) := do
  lift (← request Request.temporaryDirectory)
  match ← request (Request.getWorkerOutput runPrefix object) with
  | .ok () => do
    let same ← lift (← compare)
    return if same then (verified, true) else (mismatched, false)
  | .error _ => pure (unfetched, false)

def verifyResponse (launch : ChallengeLaunch) (outcome : Outcome) :
    Step Price (Outcome × Bool) :=
  if outcome = .responsePublished then
    verifyOutput launch.runPrefix launch.challenge.response
      (request (Request.responseMatches launch.challenge))
      .completed .responseBindingFailed .responseFetchFailed
  else pure (outcome, false)

def verifyFailure (launch : ChallengeLaunch) (code : Option String) (outcome : Outcome) :
    Step Price (Outcome × Bool) :=
  if outcome = .workerFailurePublished then
    match code.bind fun code => launch.challenge.failures.find? fun f => f.code = code with
    | some failure =>
      verifyOutput launch.runPrefix failure.object (request (Request.failureMatches failure))
        .workerFailurePublished .workerFailureBindingFailed .workerFailureFetchFailed
    | none => pure (.workerFailureBindingFailed, false)
  else pure (outcome, false)

def challengeReceipt (options : StorageChallengeOptions Price) (prepared : PreparedLaunch Price)
    (launch : ChallengeLaunch) (launched : LaunchedPod Price) (watchdog : Watchdog String)
    (outcome : Outcome) (responseVerified workerFailureVerified : Bool) :
    RunpodStorageChallengeReceipt Price :=
  { toPodBinding := launched.binding prepared
    toWatchRecord := watchdog.record prices options.toLaunchOptions prepared launched.pod outcome
    schemaVersion := "livefire.rag.runpod-storage-challenge-receipt/1"
    executorImage := options.image
    runPrefix := launch.runPrefix.val
    bootstrap := launch.challenge.bootstrap
    challenge := launch.challenge.challenge
    response := launch.challenge.response
    responseVerified
    workerFailureCode := watchdog.failure
    workerFailureVerified }

/-- The challenge did not reach the store: its Pod is deleted and the run recorded. -/
def abandonChallenge (options : StorageChallengeOptions Price) (prepared : PreparedLaunch Price)
    (launch : ChallengeLaunch) (launched : LaunchedPod Price) : Step Price Unit := do
  let podTermination ← cleanUp launched.pod.id
  let elapsed ← elapsedSince prepared.started
  let completedAtMs : U64 ← request Request.unixTimeMs
  let watchdog : Watchdog String :=
    { outcome := .challengeUploadFailed
      failure := none
      podTermination := podTermination
      elapsedMs := min (elapsed / 10 ^ 6) (2 ^ 64 - 1)
      completedAtMs := completedAtMs }
  lift (← request (Request.write prepared.paths.output (.storageChallenge
    (challengeReceipt prices options prepared launch launched watchdog .challengeUploadFailed
      false false))))
  throw (.supervisedRun .challengeUploadFailed)

def superviseChallenge (turns : ℕ) (options : StorageChallengeOptions Price)
    (launch : ChallengeLaunch) (prepared : PreparedLaunch Price)
    (launched : LaunchedPod Price) : Step Price Unit := do
  match ← request (Request.putObject launch.runPrefix launch.challenge.challenge) with
  | .error _ => abandonChallenge prices options prepared launch launched
  | .ok () => do
    let watchdog ← watchAndDelete turns
      (challengeTurn prices reading options.toLaunchOptions prepared.started launched.pod launch)
      launched.pod.id prepared.started
    let (outcome, responseVerified) ← verifyResponse launch watchdog.outcome
    let (outcome, workerFailureVerified) ← verifyFailure launch watchdog.failure outcome
    let receipt := challengeReceipt prices options prepared launch launched watchdog outcome
      responseVerified workerFailureVerified
    conclude prepared.paths.output (.storageChallenge receipt) receipt.toWatchRecord

/-! ### The commands -/

/-- The commands that create a paid Pod. -/
inductive CreateCommand (Price : Type) where
  | runPod (options : PodLaunchOptions Price)
  | conformancePod (options : ConformanceLaunchOptions Price)
  | storageChallenge (options : StorageChallengeOptions Price)

/-- Everything up to the scheduling of the Pod. With the launch comes what is to be done
with the Pod once it is admitted and recorded. -/
def prepare (turns : ℕ) : CreateCommand Price →
    Step Price (PreparedLaunch Price × (LaunchedPod Price → Step Price Unit))
  | .runPod options => do
    let prepared ← preparePod prices options
    return (prepared, superviseWorkers prices reading turns options prepared)
  | .conformancePod options => do
    let (prepared, candidate) ← prepareConformancePod prices options
    return (prepared, superviseConformance prices reading turns options candidate prepared)
  | .storageChallenge options => do
    let (prepared, launch) ← prepareChallenge prices options
    return (prepared, superviseChallenge prices reading turns options launch prepared)

/-- `pod create`, `conformance create` and `storage-challenge create`, with every loop cut
after a number of turns. -/
def create (turns : ℕ) (command : CreateCommand Price) : Step Price Unit := do
  let (prepared, supervise) ← prepare prices reading turns command
  let launched ← launchPod prices reading turns prepared
  supervise launched

end Commands

end LivefireRag.Launch
