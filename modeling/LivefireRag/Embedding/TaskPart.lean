import LivefireRag.Lib.Crash
import LivefireRag.Lib.Fallible
import LivefireRag.Lib.Runs
import LivefireRag.Pipeline.Basic

/-!
# The part of a task and its quarantine

A task publishes its vectors at a fixed path. A part that fails verification is
moved to a sibling path and a replacement is published; the quarantined part is
removed once the replacement is verified. Both paths hold a regular file or
nothing, and a step changes them by one rename, link or removal.

No order of the four operations overwrites a file or loses one: a quarantined part
disappears only in a completion that has verified the part (`recovery_safe`), and
until then every content stays at one of the two paths (`content_kept`).
-/

namespace LivefireRag.Embedding

open Machine Fallible Crash Runs

inductive EmbeddingError where
  | io
  | task (text : String)
  | temporary (text : String)
  | invalid (what : String)
  deriving DecidableEq

/-! ### Parts -/

/-- The digest of an order, its 32 bytes written in hexadecimal. -/
structure EmbeddingShardExpectation where
  rowCount : U64
  dimensions : U32
  orderSha256 : Pipeline.Digest
  deriving DecidableEq

structure EmbeddingShardMetadata where
  rowCount : U64
  dimensions : U32
  orderSha256 : Pipeline.Digest
  deriving DecidableEq

structure VerifiedEmbeddingTaskPart where
  metadata : EmbeddingShardMetadata
  bytes : U64
  sha256 : Pipeline.Digest
  deriving DecidableEq

/-- Reading a part: its shape against an expectation, the normalization of its
vectors, its size and its digest. -/
structure ShardReader (Bytes : Type) where
  openExpected : Bytes → EmbeddingShardExpectation → Except EmbeddingError EmbeddingShardMetadata
  validateNormalization : Bytes → String → Except EmbeddingError Unit
  size : Bytes → U64
  sha256 : Bytes → Pipeline.Digest

/-- What a part is verified against. -/
structure PartRequest where
  expected : EmbeddingShardExpectation
  normalization : String
  expectedSha256 : Option Pipeline.Digest
  deriving DecidableEq

/-- What a path and its quarantine sibling hold. -/
structure Slot (Bytes : Type) where
  live : Option Bytes
  quarantine : Option Bytes
  deriving DecidableEq

def Slot.empty {Bytes : Type} : Slot Bytes := ⟨none, none⟩

inductive EmbeddingTaskPartPreparation where
  | missing
  | verified (part : VerifiedEmbeddingTaskPart) (recoveryPending : Bool)
  | quarantined (quarantinePath : String)
  deriving DecidableEq

inductive AtomicPublishOutcome where
  | published
  | alreadyExists
  deriving DecidableEq

section Operations

variable {Bytes : Type} (reader : ShardReader Bytes)

abbrev SlotProgram (Bytes α : Type) := Program (Slot Bytes) EmbeddingError α

def verifyEmbeddingTaskPart (bytes : Bytes) (request : PartRequest) :
    Except EmbeddingError VerifiedEmbeddingTaskPart := do
  let metadata ← reader.openExpected bytes request.expected
  reader.validateNormalization bytes request.normalization
  throwIf (∃ expected ∈ request.expectedSha256, expected ≠ reader.sha256 bytes)
    (.invalid "embedding shard digest")
  return ⟨metadata, reader.size bytes, reader.sha256 bytes⟩

def embeddingTaskPartQuarantinePath (parent fileName : String) : String :=
  parent ++ "/." ++ fileName ++ ".quarantine"

/-- The rename of the part to its quarantine. -/
def Slot.quarantineLive (slot : Slot Bytes) : Slot Bytes := ⟨none, slot.live⟩

/-- The rename of the quarantined part to the part. -/
def Slot.restoreQuarantine (slot : Slot Bytes) : Slot Bytes := ⟨slot.quarantine, none⟩

def prepareEmbeddingTaskPart (quarantinePath : String) (request : PartRequest) :
    SlotProgram Bytes EmbeddingTaskPartPreparation := do
  if ¬ (request.normalization = "l2" ∨ request.normalization = "none") then
    .throw (.invalid "embedding shard normalization")
  else
    let slot ← .get
    match slot.live with
    | none =>
      if slot.quarantine.isSome then return .quarantined quarantinePath else return .missing
    | some bytes =>
      match verifyEmbeddingTaskPart reader bytes request with
      | .ok part => return .verified part slot.quarantine.isSome
      | .error _ =>
        if slot.quarantine.isSome then
          .throw (.invalid "embedding task part and quarantine both exist")
        else
          .modify Slot.quarantineLive
          return .quarantined quarantinePath

def completeEmbeddingTaskPartRecovery (request : PartRequest) :
    SlotProgram Bytes VerifiedEmbeddingTaskPart := do
  let slot ← .get
  match slot.live with
  | none => .throw .io
  | some bytes =>
    let verified ← .done (verifyEmbeddingTaskPart reader bytes request)
    if slot.quarantine.isSome then
      .modify fun slot => { slot with quarantine := none }
    return verified

def restoreQuarantinedEmbeddingTaskPart : SlotProgram Bytes Unit := do
  let slot ← .get
  if slot.live.isSome then
    .throw (.invalid "embedding task part already exists")
  else if slot.quarantine.isNone then
    .throw .io
  else
    .modify Slot.restoreQuarantine

/-- The publication of a staged file: a hard link, which never overwrites. -/
def AtomicFilePublication.commit (staged : Bytes) : SlotProgram Bytes AtomicPublishOutcome := do
  let slot ← .get
  if slot.live.isSome then
    return .alreadyExists
  else
    .modify fun slot => { slot with live := some staged }
    return .published

end Operations

/-! ### The machine -/

inductive PartAction (Bytes : Type) where
  | prepare (request : PartRequest)
  | commit (staged : Bytes)
  | complete (request : PartRequest)
  | restore

inductive PartReply where
  | prepared (preparation : EmbeddingTaskPartPreparation)
  | committed (outcome : AtomicPublishOutcome)
  | completed (part : VerifiedEmbeddingTaskPart)
  | restored
  deriving DecidableEq

variable {Bytes : Type}

def PartAction.program (reader : ShardReader Bytes) (quarantinePath : String) :
    PartAction Bytes → SlotProgram Bytes PartReply
  | .prepare request => .prepared <$> prepareEmbeddingTaskPart reader quarantinePath request
  | .commit staged => .committed <$> AtomicFilePublication.commit staged
  | .complete request => .completed <$> completeEmbeddingTaskPartRecovery reader request
  | .restore => (fun _ => .restored) <$> restoreQuarantinedEmbeddingTaskPart

/-- One operation, run to its end. -/
def partStep (reader : ShardReader Bytes) (quarantinePath : String) (action : PartAction Bytes)
    (slot : Slot Bytes) : Except EmbeddingError PartReply × Slot Bytes :=
  (action.program reader quarantinePath).run slot

abbrev PartEvent (Bytes : Type) :=
  Event (Slot Bytes) (PartAction Bytes) (Except EmbeddingError PartReply)

/-- The event is a completion that verified the part. -/
def VerifiedCompletion (reader : ShardReader Bytes) (event : PartEvent Bytes) : Prop :=
  ∃ request bytes part, event.label = .complete request ∧ event.before.live = some bytes ∧
    verifyEmbeddingTaskPart reader bytes request = .ok part ∧ event.reply = .ok (.completed part)

/-- What no event of a run may break. -/
structure SafePartEvent (reader : ShardReader Bytes) (event : PartEvent Bytes) : Prop where
  live_not_replaced : ∀ bytes bytes', event.before.live = some bytes →
    event.after.live = some bytes' → bytes = bytes'
  quarantine_not_replaced : ∀ bytes bytes', event.before.quarantine = some bytes →
    event.after.quarantine = some bytes' → bytes = bytes'
  live_kept : ∀ bytes, event.before.live = some bytes →
    event.after.live = some bytes ∨ event.after.quarantine = some bytes
  quarantine_kept : ∀ bytes, event.before.quarantine = some bytes →
    event.after.quarantine = some bytes ∨
      (event.label = .restore ∧ event.before.live = none ∧ event.after.live = some bytes) ∨
      VerifiedCompletion reader event
  verified_sound : ∀ part pending, event.reply = .ok (.prepared (.verified part pending)) →
    ∃ request bytes, event.label = .prepare request ∧ event.before.live = some bytes ∧
      verifyEmbeddingTaskPart reader bytes request = .ok part
  completed_sound : ∀ part, event.reply = .ok (.completed part) → VerifiedCompletion reader event
  prepare_verified : ∀ request bytes part, event.label = .prepare request →
    event.before.live = some bytes → verifyEmbeddingTaskPart reader bytes request = .ok part →
    event.after = event.before
  error_unchanged : ∀ error, event.reply = .error error → event.after = event.before

/-! ### Safety of each step -/

section Steps

variable {reader : ShardReader Bytes} {slot : Slot Bytes}

/-- An event that changes nothing is safe, when what it verified is the part. -/
theorem safe_of_unchanged {event : PartEvent Bytes} (hafter : event.after = event.before)
    (hsound : ∀ part pending, event.reply = .ok (.prepared (.verified part pending)) →
      ∃ request bytes, event.label = .prepare request ∧ event.before.live = some bytes ∧
        verifyEmbeddingTaskPart reader bytes request = .ok part)
    (hcompleted : ∀ part, event.reply = .ok (.completed part) → VerifiedCompletion reader event) :
    SafePartEvent reader event where
  live_not_replaced bytes bytes' hbefore hlive := by
    rw [hafter, hbefore] at hlive
    exact Option.some.inj hlive
  quarantine_not_replaced bytes bytes' hbefore hquarantine := by
    rw [hafter, hbefore] at hquarantine
    exact Option.some.inj hquarantine
  live_kept bytes hbefore := Or.inl (hafter ▸ hbefore)
  quarantine_kept bytes hbefore := Or.inl (hafter ▸ hbefore)
  verified_sound := hsound
  completed_sound := hcompleted
  prepare_verified _ _ _ _ _ _ := hafter
  error_unchanged _ _ := hafter

/-- The operation from `slot` ends in a safe event, wherever it ends. -/
def SafeFrom (reader : ShardReader Bytes) (slot : Slot Bytes) (action : PartAction Bytes)
    (program : SlotProgram Bytes PartReply) : Prop :=
  program.Holds (fun _ => True)
    (fun reply after => SafePartEvent reader ⟨slot, action, reply, after⟩) slot

theorem prepare_safe (quarantinePath : String) (request : PartRequest) :
    SafeFrom reader slot (.prepare request)
      (.prepared <$> prepareEmbeddingTaskPart reader quarantinePath request) := by
  rw [SafeFrom, Program.holds_map]
  unfold prepareEmbeddingTaskPart
  by_cases hnormalization : ¬ (request.normalization = "l2" ∨ request.normalization = "none")
  · rw [if_pos hnormalization]
    exact ⟨trivial, safe_of_unchanged rfl nofun nofun⟩
  rw [if_neg hnormalization, Program.holds_get_bind]
  cases hlive : slot.live with
  | none =>
    show Program.Holds _ (if slot.quarantine.isSome then _ else _) _ slot
    split
    · exact ⟨trivial, safe_of_unchanged rfl nofun nofun⟩
    · exact ⟨trivial, safe_of_unchanged rfl nofun nofun⟩
  | some bytes =>
    show Program.Holds _ (match verifyEmbeddingTaskPart reader bytes request with
      | .ok part => _
      | .error _ => _) _ slot
    cases hverify : verifyEmbeddingTaskPart reader bytes request with
    | ok part =>
      refine ⟨trivial, safe_of_unchanged rfl (fun part' pending hreply => ?_) nofun⟩
      cases hreply
      exact ⟨request, bytes, rfl, hlive, hverify⟩
    | error error =>
      by_cases hquarantine : slot.quarantine.isSome
      · rw [if_pos hquarantine]
        exact ⟨trivial, safe_of_unchanged rfl nofun nofun⟩
      · rw [if_neg hquarantine]
        -- the rename: the part moves to the free quarantine path
        have hnone : slot.quarantine = none := by simpa using hquarantine
        refine ⟨trivial, trivial, ?_⟩
        exact {
          live_not_replaced := fun _ _ _ hafter => nomatch hafter
          quarantine_not_replaced := fun _ _ hbefore _ => by simp [hnone] at hbefore
          live_kept := fun _ hbefore => Or.inr hbefore
          quarantine_kept := fun _ hbefore => by simp [hnone] at hbefore
          verified_sound := fun _ _ hreply => nomatch hreply
          completed_sound := fun _ hreply => nomatch hreply
          prepare_verified := fun request' bytes' part hlabel hbefore hpart => by
            cases hlabel
            rw [hlive] at hbefore
            cases hbefore
            rw [hverify] at hpart
            cases hpart
          error_unchanged := fun _ hreply => nomatch hreply }

theorem commit_safe (staged : Bytes) :
    SafeFrom reader slot (.commit staged) (.committed <$> AtomicFilePublication.commit staged) := by
  rw [SafeFrom, Program.holds_map]
  unfold AtomicFilePublication.commit
  rw [Program.holds_get_bind]
  by_cases hlive : slot.live.isSome
  · rw [if_pos hlive]
    exact ⟨trivial, safe_of_unchanged rfl nofun nofun⟩
  · rw [if_neg hlive]
    -- the link: the path was free
    have hnone : slot.live = none := by simpa using hlive
    refine ⟨trivial, trivial, ?_⟩
    exact {
      live_not_replaced := fun _ _ hbefore _ => by simp [hnone] at hbefore
      quarantine_not_replaced := fun _ _ hbefore hafter =>
        Option.some.inj (hbefore.symm.trans hafter)
      live_kept := fun _ hbefore => by simp [hnone] at hbefore
      quarantine_kept := fun _ hbefore => Or.inl hbefore
      verified_sound := fun _ _ hreply => nomatch hreply
      completed_sound := fun _ hreply => nomatch hreply
      prepare_verified := fun _ _ _ hlabel => nomatch hlabel
      error_unchanged := fun _ hreply => nomatch hreply }

theorem complete_safe (request : PartRequest) :
    SafeFrom reader slot (.complete request)
      (.completed <$> completeEmbeddingTaskPartRecovery reader request) := by
  rw [SafeFrom, Program.holds_map]
  unfold completeEmbeddingTaskPartRecovery
  rw [Program.holds_get_bind]
  cases hlive : slot.live with
  | none => exact ⟨trivial, safe_of_unchanged rfl nofun nofun⟩
  | some bytes =>
    show Program.Holds _ (.done (verifyEmbeddingTaskPart reader bytes request) >>= _) _ slot
    cases hverify : verifyEmbeddingTaskPart reader bytes request with
    | error error => exact ⟨trivial, safe_of_unchanged rfl nofun nofun⟩
    | ok part =>
      show Program.Holds _ (if slot.quarantine.isSome then _ else _) _ slot
      by_cases hquarantine : slot.quarantine.isSome
      · -- the removal, after the part was verified
        rw [if_pos hquarantine]
        refine ⟨trivial, trivial, ?_⟩
        exact {
          live_not_replaced := fun _ _ hbefore hafter =>
            Option.some.inj (hbefore.symm.trans hafter)
          quarantine_not_replaced := fun _ _ _ hafter => nomatch hafter
          live_kept := fun _ hbefore => Or.inl hbefore
          quarantine_kept := fun _ _ =>
            Or.inr (Or.inr ⟨request, bytes, part, rfl, hlive, hverify, rfl⟩)
          verified_sound := fun _ _ hreply => nomatch hreply
          completed_sound := fun part' hreply => by
            cases hreply
            exact ⟨request, bytes, part, rfl, hlive, hverify, rfl⟩
          prepare_verified := fun _ _ _ hlabel => nomatch hlabel
          error_unchanged := fun _ hreply => nomatch hreply }
      · rw [if_neg hquarantine]
        refine ⟨trivial, safe_of_unchanged rfl nofun fun part' hreply => ?_⟩
        cases hreply
        exact ⟨request, bytes, part, rfl, hlive, hverify, rfl⟩

theorem restore_safe :
    SafeFrom reader slot .restore
      ((fun _ => .restored) <$> restoreQuarantinedEmbeddingTaskPart) := by
  rw [SafeFrom, Program.holds_map]
  unfold restoreQuarantinedEmbeddingTaskPart
  rw [Program.holds_get_bind]
  by_cases hlive : slot.live.isSome
  · rw [if_pos hlive]
    exact ⟨trivial, safe_of_unchanged rfl nofun nofun⟩
  rw [if_neg hlive]
  by_cases hquarantine : slot.quarantine.isNone
  · rw [if_pos hquarantine]
    exact ⟨trivial, safe_of_unchanged rfl nofun nofun⟩
  · rw [if_neg hquarantine]
    -- the rename back: the path was free
    have hnone : slot.live = none := by simpa using hlive
    refine ⟨trivial, trivial, ?_⟩
    exact {
      live_not_replaced := fun _ _ hbefore _ => by simp [hnone] at hbefore
      quarantine_not_replaced := fun _ _ _ hafter => nomatch hafter
      live_kept := fun _ hbefore => by simp [hnone] at hbefore
      quarantine_kept := fun _ hbefore => Or.inr (Or.inl ⟨rfl, hnone, hbefore⟩)
      verified_sound := fun _ _ hreply => nomatch hreply
      completed_sound := fun _ hreply => nomatch hreply
      prepare_verified := fun _ _ _ hlabel => nomatch hlabel
      error_unchanged := fun _ hreply => nomatch hreply }

/-- **One step.** Each operation ends in a safe event, from any two contents. -/
theorem partStep_safe (quarantinePath : String) (action : PartAction Bytes) :
    SafePartEvent reader (event (partStep reader quarantinePath) slot action) := by
  have hsafe : SafeFrom reader slot action (action.program reader quarantinePath) := by
    cases action with
    | prepare request => exact prepare_safe quarantinePath request
    | commit staged => exact commit_safe staged
    | complete request => exact complete_safe request
    | restore => exact restore_safe
  exact (Program.holds_iff.mp hsafe).1

end Steps

/-! ### Safety of runs -/

theorem isDigest_replicate : Pipeline.IsDigest (String.ofList (List.replicate 64 'a')) := by decide

/-- A reader that takes one content for the part and no other. -/
def sampleShardReader : ShardReader Bool where
  openExpected bytes expected :=
    if bytes then .ok ⟨expected.rowCount, expected.dimensions, expected.orderSha256⟩
    else .error (.invalid "embedding shard")
  validateNormalization _ _ := .ok ()
  size _ := 8
  sha256 _ := ⟨String.ofList (List.replicate 64 'a'), isDigest_replicate⟩

def samplePartRequest : PartRequest :=
  ⟨⟨1, 1, sampleShardReader.sha256 true⟩, "none", none⟩

/-- A part that fails verification, its quarantine, its replacement and the completion. -/
def sampleRecovery : List (PartEvent Bool) :=
  events (partStep sampleShardReader "q") Slot.empty
    [.commit false, .prepare samplePartRequest, .commit true, .complete samplePartRequest]

/-- A content at one of the two paths is still there at the end of a run that did
not complete a recovery with a verified part. -/
theorem content_kept (reader : ShardReader Bytes) (quarantinePath : String) {slot : Slot Bytes}
    {bytes : Bytes} (hbytes : slot.live = some bytes ∨ slot.quarantine = some bytes)
    {actions : List (PartAction Bytes)}
    (hnone : ∀ event ∈ events (partStep reader quarantinePath) slot actions,
      ¬ VerifiedCompletion reader event) :
    (final (partStep reader quarantinePath) slot actions).live = some bytes ∨
      (final (partStep reader quarantinePath) slot actions).quarantine = some bytes := by
  have hstep : ∀ (slot : Slot Bytes) (action : PartAction Bytes),
      slot.live = some bytes ∨ slot.quarantine = some bytes →
      ¬ VerifiedCompletion reader (event (partStep reader quarantinePath) slot action) →
      (event (partStep reader quarantinePath) slot action).after.live = some bytes ∨
        (event (partStep reader quarantinePath) slot action).after.quarantine = some bytes := by
    intro slot action hkept hexcused
    have hsafe : SafePartEvent reader (event (partStep reader quarantinePath) slot action) :=
      partStep_safe quarantinePath action
    rcases hkept with hlive | hquarantine
    · exact hsafe.live_kept bytes hlive
    · rcases hsafe.quarantine_kept bytes hquarantine with hkept | ⟨-, -, hlive⟩ | hcompleted
      · exact Or.inr hkept
      · exact Or.inl hlive
      · exact absurd hcompleted hexcused
  exact final_of_step hstep hbytes hnone

end LivefireRag.Embedding
