import LivefireRag.Launch.Commands

/-!
# No Pod is left running

From the moment a Pod is scheduled every exchange is either one after which the commands
clean up, or one of the few after which they return at once: the receipts that are read
back, and the key of the completion object (`Guarded`). `create_accounts`: a run accounts
for its Pod exactly when all its exchanges are guarded.

A run is followed through three kinds of logs: in a `Pending` log the Pod has not been
deleted and nothing has gone wrong, in a `Released` log its deletion has been asked for,
and in a `Leaked` log the command has returned without asking for it.
-/

namespace LivefireRag.Launch

open Machine Fallible Pipeline Cloud Effects Effects.Program

section Logs

variable {Price : Type}

abbrev Log (Price : Type) := List (Exchange (@Reply Price))

/-- A deletion that succeeded, or found the Pod gone. -/
def IsGone (reply : ControlResult Unit) : Prop :=
  reply = .ok () ∨ reply = .error (.unexpectedStatus "delete Pod" 404)

def DeleteAsked (id : String) (log : Log Price) : Prop :=
  ∃ reply : ControlResult Unit, ⟨Request.deletePod id, reply⟩ ∈ log

def Deleted (id : String) (log : Log Price) : Prop :=
  ∃ reply : ControlResult Unit, ⟨Request.deletePod id, reply⟩ ∈ log ∧ IsGone reply

/-- The object with the key was there when the store was asked. -/
def Seen (key : String) (log : Log Price) : Prop :=
  ∃ runPrefix completionKey : SafeRelativePath, completionKey.val = key ∧
    ⟨Request.headWorkerKey runPrefix completionKey,
      (Except.ok .present : CliResult HeadObjectState)⟩ ∈ log

/-- The deletion of the Pod was asked for, and the command succeeded only if the Pod is gone
and its completion object was seen. -/
structure Accounted (id key : String) (log : Log Price) (result : CliResult Unit) : Prop where
  asked : DeleteAsked id log
  success : result = .ok () → Deleted id log ∧ Seen key log

/-- An exchange after which a command does not return without a deletion. It returns at once
when it cannot read a file back to digest it, and when the observation has been staged but
the completion key is no path. -/
def Guarded (key : String) : Exchange (@Reply Price) → Prop
  | ⟨.digestFile _, reply⟩ => ∃ r, reply = .ok r
  | ⟨.stageObservation _ _ _, reply⟩ => (∃ r, reply = .ok r) → IsSafeRelativePath key
  | _ => True

structure Pending (id key : String) (log : Log Price) : Prop where
  guarded : ∀ e ∈ log, Guarded key e
  kept : ¬ DeleteAsked id log

structure Released (id key : String) (log : Log Price) : Prop where
  guarded : ∀ e ∈ log, Guarded key e
  asked : DeleteAsked id log

structure Leaked (id key : String) (log : Log Price) : Prop where
  exposed : ∃ e ∈ log, ¬ Guarded key e
  kept : ¬ DeleteAsked id log

/-- A step of a command goes on with the Pod, or ends the command. -/
def Continues {ε α : Type} (id key : String) : Except ε α → Log Price → Prop
  | .ok _, log => Pending id key log
  | .error _, log => Released id key log ∨ Leaked id key log

/-- How a command ends. -/
def Concluded (id key : String) (result : CliResult Unit) (log : Log Price) : Prop :=
  ((∀ e ∈ log, Guarded key e) ∧ Accounted id key log result) ∨ Leaked id key log

variable {id key : String} {log past : Log Price} {e : Exchange (@Reply Price)}

theorem Concluded.iff {result : CliResult Unit} (h : Concluded id key result log) :
    Accounted id key log result ↔ ∀ e ∈ log, Guarded key e := by
  rcases h with ⟨hguarded, haccounted⟩ | hleaked
  · exact ⟨fun _ => hguarded, fun _ => haccounted⟩
  · obtain ⟨e, he, hexposed⟩ := hleaked.exposed
    exact ⟨fun h => absurd h.asked hleaked.kept, fun h => absurd (h e he) hexposed⟩

theorem Concluded.of_error {result : CliResult Unit} {error : CliError}
    (h : Released id key log ∨ Leaked id key log) (hresult : result = .error error) :
    Concluded id key result log := by
  rcases h with hreleased | hleaked
  · refine .inl ⟨hreleased.guarded, hreleased.asked, fun hok => ?_⟩
    rw [hresult] at hok
    cases hok
  · exact .inr hleaked

theorem not_deleteAsked_singleton {request : Request Price} {reply : Reply request}
    (h : ∀ id, request ≠ .deletePod id) : ¬ DeleteAsked id [⟨request, reply⟩] := by
  rintro ⟨r, hr⟩
  exact h id (congrArg Sigma.fst (List.mem_singleton.mp hr)).symm

theorem guarded_append {added : Log Price} (h : ∀ e ∈ log, Guarded key e)
    (hadded : ∀ e ∈ added, Guarded key e) : ∀ e ∈ log ++ added, Guarded key e := fun e he =>
  (List.mem_append.mp he).elim (h e) (hadded e)

theorem Pending.append {added : Log Price} (h : Pending id key log)
    (hadded : ∀ e ∈ added, Guarded key e) (hkept : ¬ DeleteAsked id added) :
    Pending id key (log ++ added) := by
  refine ⟨guarded_append h.guarded hadded, ?_⟩
  rintro ⟨reply, hmem⟩
  exact (List.mem_append.mp hmem).elim (fun hmem => h.kept ⟨reply, hmem⟩)
    fun hmem => hkept ⟨reply, hmem⟩

theorem DeleteAsked.mono {log' : Log Price} (h : DeleteAsked id log) (hsub : log ⊆ log') :
    DeleteAsked id log' := by
  obtain ⟨reply, hmem⟩ := h
  exact ⟨reply, hsub hmem⟩

theorem Deleted.mono {log' : Log Price} (h : Deleted id log) (hsub : log ⊆ log') :
    Deleted id log' := by
  obtain ⟨reply, hmem, hgone⟩ := h
  exact ⟨reply, hsub hmem, hgone⟩

theorem Seen.mono {log' : Log Price} (h : Seen key log) (hsub : log ⊆ log') : Seen key log' := by
  obtain ⟨runPrefix, completionKey, hkey, hmem⟩ := h
  exact ⟨runPrefix, completionKey, hkey, hsub hmem⟩

/-! ### What the steps ask -/

/-- A request that is always followed by a clean up. -/
def IsCovered : Request Price → Prop
  | .digestFile _ => False
  | .stageObservation _ _ _ => False
  | _ => True

/-- A covered request that deletes nothing. -/
def IsPlain (request : Request Price) : Prop :=
  IsCovered request ∧ ∀ id, request ≠ .deletePod id

theorem guarded_of_isCovered {request : Request Price} {reply : Reply request}
    (h : IsCovered request) : Guarded key ⟨request, reply⟩ := by
  cases request <;> first | exact trivial | exact h.elim

theorem guarded_snoc (request : Request Price) (h : ∀ e ∈ log, Guarded key e)
    (hcovered : IsCovered request) (reply : Reply request) :
    ∀ e ∈ log ++ [⟨request, reply⟩], Guarded key e :=
  guarded_append h (List.forall_mem_singleton.mpr (guarded_of_isCovered hcovered))

theorem Pending.snoc (h : Pending id key log) (request : Request Price)
    (hplain : IsPlain request) (reply : Reply request) :
    Pending id key (log ++ [⟨request, reply⟩]) :=
  h.append (List.forall_mem_singleton.mpr (guarded_of_isCovered hplain.1))
    (not_deleteAsked_singleton hplain.2)

variable {ε α : Type} {p : Program (@Reply Price) ε α}

theorem guarded_holds (h : ∀ e ∈ past, Guarded key e) (hp : p.Asks IsCovered) :
    p.Holds past fun _ log => past <+: log ∧ ∀ e ∈ log, Guarded key e := by
  refine (hp.holds past).imp ?_
  rintro r log ⟨added, rfl, hadded⟩
  exact ⟨List.prefix_append past added,
    guarded_append h fun e he => guarded_of_isCovered (hadded e he)⟩

theorem pending_holds (h : Pending id key past) (hp : p.Asks IsPlain) :
    p.Holds past fun _ log => Pending id key log := by
  refine (hp.holds past).imp ?_
  rintro r log ⟨added, rfl, hadded⟩
  refine h.append (fun e he => guarded_of_isCovered (hadded e he).1) ?_
  rintro ⟨reply, hmem⟩
  exact (hadded _ hmem).2 id rfl

/-! ### Deletions -/

theorem validateIdentifier_ok (hid : IsControlIdentifier id) : validateIdentifier id = .ok () :=
  throwIf_eq_ok.mpr fun h => h hid

theorem deletePod_holds (hid : IsControlIdentifier id) (past : Log Price) :
    (deletePod id : Control Price Unit).Holds past fun r log =>
      log = past ++ [⟨Request.deletePod id, r⟩] := by
  unfold deletePod
  rw [validateIdentifier_ok hid]
  intro reply
  exact rfl

/-- Deletions that are asked for until one of them ends well. -/
theorem deleteAttempts_holds (hid : IsControlIdentifier id) (attempts : ℕ)
    (h : ∀ e ∈ past, Guarded key e) (hasked : attempts = 0 → DeleteAsked id past) :
    (deleteAttempts id attempts : Step Price Bool).Holds past fun r log =>
      ∃ deleted, r = .ok deleted ∧ Released id key log ∧ (deleted = true → Deleted id log) := by
  induction attempts generalizing past with
  | zero => exact ⟨false, rfl, ⟨h, hasked rfl⟩, nofun⟩
  | succ attempts ih =>
    refine holds_bind.mpr (holds_attempt.mpr ((deletePod_holds hid past).imp ?_))
    rintro reply log rfl
    have hlog := guarded_snoc (.deletePod id) h trivial reply
    have hmem : (⟨Request.deletePod id, reply⟩ : Exchange (@Reply Price)) ∈
        past ++ [⟨Request.deletePod id, reply⟩] :=
      List.mem_append_right _ (List.mem_singleton_self _)
    have hasked : DeleteAsked id (past ++ [⟨Request.deletePod id, reply⟩]) := ⟨reply, hmem⟩
    simp only [after]
    split
    · exact ⟨true, rfl, ⟨hlog, hasked⟩, fun _ => ⟨_, hmem, .inl rfl⟩⟩
    · exact ⟨true, rfl, ⟨hlog, hasked⟩, fun _ => ⟨_, hmem, .inr rfl⟩⟩
    · exact ih hlog fun _ => hasked

theorem deletePodWithRetries_holds (hid : IsControlIdentifier id)
    (h : ∀ e ∈ past, Guarded key e) :
    (deletePodWithRetries id : Step Price Bool).Holds past fun r log =>
      ∃ deleted, r = .ok deleted ∧ Released id key log ∧ (deleted = true → Deleted id log) :=
  deleteAttempts_holds hid 10 h nofun

theorem cleanUp_holds (hid : IsControlIdentifier id) (h : ∀ e ∈ past, Guarded key e) :
    (cleanUp id : Step Price CleanupOutcome).Holds past fun r log =>
      ∃ cleanup, r = .ok cleanup ∧ Released id key log ∧
        (cleanup = .succeeded → Deleted id log) := by
  refine holds_bind.mpr ((deletePodWithRetries_holds hid h).imp ?_)
  rintro _ log ⟨deleted, rfl, hreleased, hdeleted⟩
  refine ⟨_, rfl, hreleased, fun hcleanup => hdeleted ?_⟩
  cases deleted with
  | true => rfl
  | false => cases hcleanup

/-- What a command that is about to fail does with its Pod. -/
theorem rejectPod_holds {α : Type} (hid : IsControlIdentifier id)
    (h : ∀ e ∈ past, Guarded key e) (error : CleanupOutcome → ControlError) :
    (rejectPod id error : Control Price α).Holds past fun r log =>
      ∃ e, r = .error e ∧ Released id key log := by
  refine holds_bind.mpr (holds_attempt.mpr ((deletePod_holds hid past).imp ?_))
  rintro reply log rfl
  refine ⟨_, rfl, guarded_snoc (.deletePod id) h trivial reply, reply, ?_⟩
  exact List.mem_append_right _ (List.mem_singleton_self _)

/-! ### Before the observation is staged -/

variable {prices : PriceArithmetic Price} {reading : PodReading Price}

theorem recordOrDelete_holds (hid : IsControlIdentifier id) (h : Pending id key past)
    (path : String) (receipt : Receipt Price) :
    (recordOrDelete path receipt id).Holds past (Continues id key) := by
  refine holds_request_bind.mpr fun reply => ?_
  have hlog := h.snoc (.write path receipt) ⟨trivial, nofun⟩ reply
  cases reply with
  | ok => exact hlog
  | error e =>
    refine holds_bind.mpr ((cleanUp_holds hid hlog.guarded).imp ?_)
    rintro _ log ⟨cleanup, rfl, hreleased, -⟩
    exact .inl hreleased

theorem digestFile_holds (h : Pending id key past) (path : String) :
    (digestFile path : Step Price (ℕ × Digest)).Holds past (Continues id key) := by
  refine holds_request_bind.mpr fun reply => ?_
  have hkept : ¬ DeleteAsked id ([⟨Request.digestFile path, reply⟩] : Log Price) :=
    not_deleteAsked_singleton nofun
  cases reply with
  | ok digest => exact h.append (List.forall_mem_singleton.mpr ⟨digest, rfl⟩) hkept
  | error e =>
    refine .inr ⟨⟨_, List.mem_append_right _ (List.mem_singleton_self _), ?_⟩, ?_⟩
    · rintro ⟨r, hr⟩
      cases hr
    · rintro ⟨r, hr⟩
      simp only [List.mem_append] at hr
      exact hr.elim (fun hr => h.kept ⟨r, hr⟩) fun hr => hkept ⟨r, hr⟩

theorem getPodValue_asks (id : String) :
    (getPodValue reading id : Control Price _).Asks IsPlain :=
  asks_bind trivial fun _ => asks_bind (request_asks ⟨trivial, nofun⟩) fun _ =>
    asks_bind trivial fun _ => trivial

/-- Nothing is asked of the value of a call that ends in an error. -/
theorem forall_of_error {ε α β : Type} {error : ε} {f : β → α} {P : β → Prop} (value : β)
    (h : (Except.error error : Except ε α) = .ok (f value)) : P value := by
  cases h

theorem forall_of_ok_none {ε α : Type} {P : α → Prop} (value : α)
    (h : (Except.ok none : Except ε (Option α)) = .ok (some value)) : P value := by
  cases h

theorem admitPod_holds {scheduled : ScheduledPod} (hid : IsControlIdentifier scheduled.podId)
    (h : Pending scheduled.podId key past) (specification : PodCreateSpec Price) (value : Json) :
    (admitPod prices reading scheduled specification value).Holds past fun r log =>
      Continues scheduled.podId key r log ∧
        ∀ pod, r = .ok (some pod) → pod.id = scheduled.podId := by
  unfold admitPod
  split
  · refine (rejectPod_holds hid h.guarded _).imp ?_
    rintro _ log ⟨e, rfl, hreleased⟩
    exact ⟨.inl hreleased, forall_of_error⟩
  · next pod hpod =>
    have hpodId := podFromValue_eq_ok prices hpod
    split
    · refine (rejectPod_holds (by rwa [hpodId]) h.guarded _).imp ?_
      rintro _ log ⟨e, rfl, hreleased⟩
      exact ⟨.inl (hpodId ▸ hreleased), forall_of_error⟩
    · refine ⟨h, fun admitted hadmitted => ?_⟩
      split at hadmitted
      · cases hadmitted
        exact hpodId
      · cases hadmitted

theorem observeScheduledPod_holds {scheduled : ScheduledPod}
    (hid : IsControlIdentifier scheduled.podId) (h : Pending scheduled.podId key past)
    (specification : PodCreateSpec Price) :
    (observeScheduledPod prices reading scheduled specification).Holds past fun r log =>
      Continues scheduled.podId key r log ∧
        ∀ pod, r = .ok (some pod) → pod.id = scheduled.podId := by
  refine holds_bind.mpr (holds_attempt.mpr ((pending_holds h (getPodValue_asks _)).imp ?_))
  intro result log hlog
  simp only [after]
  split
  · split
    · exact ⟨hlog, forall_of_ok_none⟩
    · exact admitPod_holds hid hlog specification _
  · exact ⟨hlog, forall_of_ok_none⟩
  · refine (rejectPod_holds hid hlog.guarded _).imp ?_
    rintro _ log ⟨e, rfl, hreleased⟩
    exact ⟨.inl hreleased, forall_of_error⟩

theorem admitScheduledPod_holds {scheduled : ScheduledPod}
    (hid : IsControlIdentifier scheduled.podId) (h : Pending scheduled.podId key past)
    (turns : ℕ) (specification : PodCreateSpec Price) :
    (admitScheduledPod prices reading turns scheduled specification).Holds past fun r log =>
      Continues scheduled.podId key r log ∧ ∀ pod, r = .ok pod → pod.id = scheduled.podId := by
  have instant {log : Log Price} (hlog : Pending scheduled.podId key log) (now : ℕ) :=
    hlog.snoc .instant ⟨trivial, nofun⟩ now
  refine holds_request_bind.mpr fun started => ?_
  refine holds_loop (fun past (h : Pending scheduled.podId key past) => ?_)
    (instant h started) turns
  refine holds_bind.mpr ((observeScheduledPod_holds hid h specification).imp ?_)
  rintro result log ⟨hlog, hadmitted⟩
  cases result with
  | error e => exact ⟨hlog, forall_of_error⟩
  | ok observed =>
    cases observed with
    | some pod =>
      refine ⟨hlog, fun admitted hok => ?_⟩
      cases hok
      exact hadmitted pod rfl
    | none =>
      refine holds_request_bind.mpr fun now => ?_
      split
      · refine (rejectPod_holds hid (instant hlog now).guarded _).imp ?_
        rintro _ log ⟨e, rfl, hreleased⟩
        exact ⟨.inl hreleased, forall_of_error⟩
      · exact instant hlog now

/-- A step that continues, and what the command does next. -/
theorem continues_bind {β : Type} {k : α → Program (@Reply Price) ε β}
    {post : Except ε β → Log Price → Prop} (hp : p.Holds past (Continues id key))
    (hnext : ∀ a log, Pending id key log → (k a).Holds log post)
    (hend : ∀ e log, Released id key log ∨ Leaked id key log → post (.error e) log) :
    (p >>= k).Holds past post := by
  refine holds_bind.mpr (hp.imp fun r log hr => ?_)
  cases r with
  | ok a => exact hnext a log hr
  | error e => exact hend e log hr

theorem control_holds {p : Control Price α} {post : CliResult α → Log Price → Prop}
    (h : p.Holds past fun r log => post (r.mapError .control) log) :
    (control p).Holds past post := by
  refine holds_bind.mpr (holds_attempt.mpr (h.imp fun r log hr => ?_))
  exact hr

/-- The Pod of the launch is the one that was scheduled. -/
def Launches (id key : String) (r : CliResult (LaunchedPod Price)) (log : Log Price) : Prop :=
  Continues id key r log ∧ ∀ launched, r = .ok launched → launched.pod.id = id

theorem recordAndAdmit_holds {scheduled : ScheduledPod}
    (hid : IsControlIdentifier scheduled.podId) (h : Pending scheduled.podId key past)
    (turns : ℕ) (prepared : PreparedLaunch Price) :
    (recordAndAdmit prices reading turns prepared scheduled).Holds past
      (Launches scheduled.podId key) := by
  have hend : ∀ (e : CliError) (log : Log Price),
      Released scheduled.podId key log ∨ Leaked scheduled.podId key log →
      Launches scheduled.podId key (.error e) log := fun e log h => ⟨h, forall_of_error⟩
  refine continues_bind (recordOrDelete_holds hid h _ _) (fun _ log h => ?_) hend
  refine continues_bind (digestFile_holds h _) (fun digest log h => ?_) hend
  refine holds_bind.mpr (control_holds
    ((admitScheduledPod_holds hid h turns prepared.specification).imp ?_))
  rintro (e | pod) log ⟨hlog, hpod⟩
  · exact hend _ log hlog
  · have hpodId := hpod pod rfl
    rw [← hpodId] at hid hlog hend ⊢
    refine continues_bind (recordOrDelete_holds hid hlog _ _) (fun _ log h => ?_) hend
    refine continues_bind (digestFile_holds h _) (fun digest log h => ?_) hend
    refine ⟨h, fun launched hok => ?_⟩
    cases hok
    rfl

/-- The log begins with the scheduling of the Pod. -/
def Schedules (id : String) (log : Log Price) : Prop :=
  ∃ specification terminateAfter rest,
    log = ⟨Request.schedulePod specification terminateAfter,
      (Except.ok id : ControlResult String)⟩ :: rest

theorem Schedules.eq_ok {specification : PodCreateSpec Price} {terminateAfter : String}
    {reply : ControlResult String} {rest : Log Price}
    (h : Schedules id (⟨Request.schedulePod specification terminateAfter, reply⟩ :: rest)) :
    reply = .ok id := by
  obtain ⟨_, _, _, hlog⟩ := h
  cases hlog
  rfl

theorem launchPod_holds (hid : IsControlIdentifier id) (turns : ℕ)
    (prepared : PreparedLaunch Price) :
    (launchPod prices reading turns prepared).Holds [] fun r log =>
      Schedules id log → Launches id key r log := by
  refine holds_bind.mpr (control_holds (holds_request_bind.mpr fun reply => ?_))
  show after _ _ ((scheduledPod reply _).mapError CliError.control) _
  by_cases hreply : reply = .ok id
  · subst hreply
    rw [scheduledPod_ok hid]
    refine (@recordAndAdmit_holds _ _ _ prices reading ⟨id, _⟩ hid ?_ turns prepared).imp
      fun r log h _ => h
    exact ⟨List.forall_mem_singleton.mpr trivial, not_deleteAsked_singleton nofun⟩
  · cases scheduledPod reply _ with
    | error e => exact fun h => absurd h.eq_ok hreply
    | ok scheduled =>
      refine (holds_extends _ _).imp fun r log hlog h => ?_
      obtain ⟨rest, rfl⟩ := hlog
      exact absurd h.eq_ok hreply

/-! ### Staging the observation -/

theorem safePath_eq_ok {path : String} (h : IsSafeRelativePath path) :
    safePath path = .ok ⟨path, h⟩ := by
  rw [safePath, SafeRelativePath.new, dif_pos h]
  rfl

theorem isSafeRelativePath_of_safePath {path : String} {safe : SafeRelativePath}
    (h : safePath path = .ok safe) : IsSafeRelativePath path := by
  by_contra hnot
  rw [safePath, SafeRelativePath.new, dif_neg hnot] at h
  cases h

/-- Another file of a directory that a safe path names. -/
theorem isSafeRelativePath_sibling {directory file file' : String}
    (h : IsSafeRelativePath (directory ++ "/" ++ file))
    (hchars : ∀ c ∈ file'.toList, IsSegmentChar c)
    (hname : file' ≠ "" ∧ file' ≠ "." ∧ file' ≠ "..") :
    IsSafeRelativePath (directory ++ "/" ++ file') := by
  have hlist (name : String) : (directory ++ "/" ++ name).toList =
      directory.toList ++ '/' :: name.toList := by simp
  have hsplit (name : String) : Text.split '/' (directory ++ "/" ++ name) =
      Text.split '/' directory ++ Text.split '/' name := by
    rw [Text.split, Text.split, Text.split, hlist, List.splitOn_append_cons_self, List.map_append]
  have hsingle : Text.split '/' file' = [file'] := by
    have hnot : '/' ∉ file'.toList := fun hc => (hchars _ hc).2.2.2 rfl
    simpa using Text.split_of_notMem hnot
  obtain ⟨-, hback, hnull, hcolon, hsegments⟩ := h
  have chars {c : Char} (hc : c ∈ (directory ++ "/" ++ file').toList)
      (hnot : c ∉ (directory ++ "/" ++ file).toList) : IsSegmentChar c := by
    rw [hlist, List.mem_append, List.mem_cons] at hc hnot
    rcases hc with hc | hc | hc
    · exact absurd (.inl hc) hnot
    · exact absurd (.inr (.inl hc)) hnot
    · exact hchars c hc
  refine ⟨fun hempty => ?_, fun hc => (chars hc hback).1 rfl, fun hc => (chars hc hnull).2.1 rfl,
    fun hc => (chars hc hcolon).2.2.1 rfl, fun segment hsegment => ?_⟩
  · have hnil := hlist file'
    rw [hempty] at hnil
    exact absurd hnil.symm (by simp)
  · rw [hsplit, hsingle, List.mem_append, List.mem_singleton] at hsegment
    rcases hsegment with hsegment | rfl
    · refine hsegments segment ?_
      rw [hsplit]
      exact List.mem_append_left _ hsegment
    · exact hname

/-- What is known when the observation has been staged: the launch goes on only if the
completion key is a path. -/
structure Staged (id key : String) (log : Log Price) : Prop where
  pending : IsSafeRelativePath key → Pending id key log
  leaked : ¬ IsSafeRelativePath key → Leaked id key log

theorem staged_of_pending (h : Pending id key past) (runPrefix : String) (path : SafeRelativePath)
    (observation : WorkerObservation) (bytes : ℕ) :
    Staged id key (past ++ [⟨Request.stageObservation runPrefix path observation,
      (Except.ok bytes : CliResult ℕ)⟩]) := by
  have hkept : ¬ DeleteAsked id [(⟨Request.stageObservation runPrefix path observation,
      (Except.ok bytes : CliResult ℕ)⟩ : Exchange (@Reply Price))] :=
    not_deleteAsked_singleton nofun
  refine ⟨fun hkey => h.append (List.forall_mem_singleton.mpr fun _ => hkey) hkept,
    fun hkey => ⟨⟨_, List.mem_append_right _ (List.mem_singleton_self _),
      fun hguarded => hkey (hguarded ⟨bytes, rfl⟩)⟩, ?_⟩⟩
  rintro ⟨reply, hmem⟩
  exact (List.mem_append.mp hmem).elim (fun hmem => h.kept ⟨reply, hmem⟩)
    fun hmem => hkept ⟨reply, hmem⟩

/-- Staging asks the store last. -/
def Stages (id key observationKey : String) (r : CliResult ℕ) (log : Log Price) : Prop :=
  match r with
  | .ok _ => Staged id key log ∧ IsSafeRelativePath observationKey
  | .error _ => Pending id key log

theorem stageObservation_holds (h : Pending id key past) (options : LaunchOptions Price)
    (expected : RunpodAcceleratorIdentity) (observationKey : String) (pod : Pod Price) :
    (stageObservation options expected observationKey pod).Holds past
      (Stages id key observationKey) := by
  refine holds_bind.mpr ?_
  cases returnedAccelerator expected options.gpuTypeId pod with
  | error e => exact h
  | ok accelerator =>
    refine holds_bind.mpr ?_
    cases hpath : safePath observationKey with
    | error e => exact h
    | ok path =>
      refine holds_request_bind.mpr fun reply => ?_
      cases reply with
      | error e =>
        refine h.append (List.forall_mem_singleton.mpr ?_) (not_deleteAsked_singleton nofun)
        rintro ⟨bytes, hbytes⟩
        cases hbytes
      | ok bytes =>
        exact ⟨staged_of_pending h options.runPrefix path _ bytes,
          isSafeRelativePath_of_safePath hpath⟩

theorem stageWorkerObservation_holds (h : Pending id key past) (options : PodLaunchOptions Price)
    (pod : Pod Price) :
    (stageWorkerObservation options pod).Holds past
      (Stages id key (options.attemptFile "observation.json")) := by
  refine holds_request_bind.mpr fun reply => ?_
  have hlog := h.snoc (.loadBundle options.bundle) ⟨trivial, nofun⟩ reply
  cases reply with
  | error e => exact hlog
  | ok bundle => exact stageObservation_holds hlog options.toLaunchOptions _ _ pod

/-- A failed staging deletes the Pod. -/
theorem stageOrDelete_holds {stage : Step Price ℕ} {observationKey : String}
    {post : CliResult ℕ → Log Price → Prop} (hid : IsControlIdentifier id)
    (hstage : stage.Holds past (Stages id key observationKey))
    (hok : ∀ bytes log, Staged id key log → IsSafeRelativePath observationKey →
      post (.ok bytes) log)
    (herror : ∀ e log, Released id key log → post (.error e) log) :
    (stageOrDelete stage id).Holds past post := by
  refine holds_bind.mpr (holds_attempt.mpr (hstage.imp fun r log hlog => ?_))
  cases r with
  | ok bytes => exact hok bytes log hlog.1 hlog.2
  | error e =>
    refine holds_bind.mpr ((cleanUp_holds hid hlog.guarded).imp ?_)
    rintro _ log ⟨cleanup, rfl, hreleased, -⟩
    exact herror _ log hreleased

/-! ### Watching the Pod -/

/-- A check of a watch fails in no way, and it ends the watch well only when the completion
object was seen. -/
def Checks {β : Type} (good : Outcome → Prop) (key : String)
    (r : CliResult (Option (Outcome × Option β))) (log : Log Price) : Prop :=
  ∃ ending, r = .ok ending ∧ (∀ e ∈ log, Guarded key e) ∧
    ∀ outcome failure, ending = some (outcome, failure) → good outcome → Seen key log

section Checks

variable {β : Type} {good : Outcome → Prop}

/-- A check that never ends the watch well. -/
theorem checks_of_bad {check : Step Price (Option (Outcome × Option β))}
    (h : ∀ e ∈ past, Guarded key e) (hasks : check.Asks IsCovered)
    (hbad : check.Holds past fun r _ => ∃ ending, r = .ok ending ∧
      ∀ outcome failure, ending = some (outcome, failure) → ¬ good outcome) :
    check.Holds past (Checks good key) := by
  refine ((guarded_holds h hasks).and hbad).imp ?_
  rintro r log ⟨⟨-, hguarded⟩, ending, rfl, hending⟩
  exact ⟨ending, rfl, hguarded, fun outcome failure h hgood =>
    absurd hgood (hending outcome failure h)⟩

theorem firstEnding_holds {checks : List (Step Price (Option (Outcome × Option β)))}
    (hchecks : ∀ check ∈ checks, ∀ past : Log Price, (∀ e ∈ past, Guarded key e) →
      check.Holds past (Checks good key)) (h : ∀ e ∈ past, Guarded key e) :
    (firstEnding checks).Holds past (Checks good key) := by
  induction checks generalizing past with
  | nil => exact ⟨none, rfl, h, nofun⟩
  | cons check rest ih =>
    refine holds_bind.mpr ((hchecks check (List.mem_cons_self ..) past h).imp ?_)
    rintro _ log ⟨ending, rfl, hlog, hseen⟩
    cases ending with
    | some ending => exact ⟨some ending, rfl, hlog, hseen⟩
    | none => exact ih (fun check hcheck => hchecks check (List.mem_cons_of_mem _ hcheck)) hlog

theorem checkLimits_holds (h : ∀ e ∈ past, Guarded key e) (pod : Pod Price)
    (started maximumRuntimeSeconds : ℕ) (maximumTotalComputeUsd : Price)
    (hruntime : ¬ good .runtimeLimit) (hcost : ¬ good .costLimit) :
    (plainly (checkLimits prices pod started maximumRuntimeSeconds maximumTotalComputeUsd) :
      Step Price (Option (Outcome × Option β))).Holds past (Checks good key) := by
  refine checks_of_bad h ⟨trivial, fun _ => trivial⟩ (holds_request_bind.mpr fun now => ?_)
  refine ⟨_, rfl, fun outcome failure hending => ?_⟩
  split at hending
  · cases hending
    exact hruntime
  · split at hending
    · cases hending
      exact hcost
    · cases hending

theorem checkKey_holds (h : ∀ e ∈ past, Guarded key e) {runPrefix completionKey : SafeRelativePath}
    (hkey : completionKey.val = key) (present : Outcome) {failed : Outcome}
    (hfailed : ¬ good failed) :
    (plainly (checkKey runPrefix completionKey present failed) :
      Step Price (Option (Outcome × Option β))).Holds past (Checks good key) := by
  refine holds_bind.mpr (holds_request_bind.mpr fun reply => ?_)
  have hlog := guarded_snoc (.headWorkerKey runPrefix completionKey) h trivial reply
  rcases reply with e | state
  · refine ⟨_, rfl, hlog, fun outcome failure hending hgood => ?_⟩
    cases hending
    exact absurd hgood hfailed
  · cases state with
    | present =>
      refine ⟨_, rfl, hlog, fun _ _ _ _ => ⟨runPrefix, completionKey, hkey, ?_⟩⟩
      exact List.mem_append_right _ (List.mem_singleton_self _)
    | missing => exact ⟨none, rfl, hlog, nofun⟩

theorem checkPod_holds (h : ∀ e ∈ past, Guarded key e) (podId : String) {failed : Outcome}
    (hfailed : ¬ good failed) (hexited : ¬ good .podExited) :
    (plainly (checkPod prices reading podId failed) :
      Step Price (Option (Outcome × Option β))).Holds past (Checks good key) := by
  have hget : (getPod prices reading podId).Asks IsCovered :=
    asks_bind (asks_bind trivial fun _ => asks_bind ⟨trivial, fun _ => trivial⟩ fun _ =>
      asks_bind trivial fun _ => trivial) fun _ => trivial
  refine holds_bind.mpr (holds_bind.mpr (holds_attempt.mpr ((guarded_holds h hget).imp ?_)))
  rintro (e | observed) log ⟨-, hlog⟩
  · refine ⟨_, rfl, hlog, fun outcome failure hending hgood => ?_⟩
    cases hending
    exact absurd hgood hfailed
  · refine ⟨_, rfl, hlog, fun outcome failure hending hgood => ?_⟩
    split at hending
    · cases hending
    · cases hending
      exact absurd hgood hexited

theorem checkWorkerFailure_holds (h : ∀ e ∈ past, Guarded key e) (runPrefix : SafeRelativePath)
    (workerFailure : Option WorkerFailureExpectation) (hpoll : ¬ good .pollFailed)
    (hpublished : ¬ good .workerFailurePublished) (hinvalid : ¬ good .workerFailureInvalid) :
    (checkWorkerFailure runPrefix workerFailure : Step Price _).Holds past (Checks good key) := by
  cases workerFailure with
  | none => exact ⟨none, rfl, h, nofun⟩
  | some expected =>
    refine holds_request_bind.mpr fun reply => ?_
    have hlog := guarded_snoc (.headWorkerKey runPrefix expected.key) h trivial reply
    rcases reply with e | state
    · refine ⟨_, rfl, hlog, fun outcome failure hending hgood => ?_⟩
      cases hending
      exact absurd hgood hpoll
    · cases state with
      | missing => exact ⟨none, rfl, hlog, nofun⟩
      | present =>
        refine holds_bind.mpr (holds_request_bind.mpr fun event => ?_)
        have hlog' := guarded_snoc (.getWorkerRuntimeEvent runPrefix expected.key)
          hlog trivial event
        rcases event with e | event
        · refine ⟨_, rfl, hlog', fun outcome failure hending hgood => ?_⟩
          cases hending
          exact absurd hgood hinvalid
        · refine ⟨_, rfl, hlog', fun outcome failure hending hgood => ?_⟩
          split at hending
          · cases hending
            exact absurd hgood hpublished
          · cases hending
            exact absurd hgood hinvalid

theorem checkFailureKeys_holds (h : ∀ e ∈ past, Guarded key e) (runPrefix : SafeRelativePath)
    (failures : List StorageChallengeFailure) (hpoll : ¬ good .storagePollFailed)
    (hpublished : ¬ good .workerFailurePublished) :
    (checkFailureKeys runPrefix failures : Step Price _).Holds past (Checks good key) := by
  induction failures generalizing past with
  | nil => exact ⟨none, rfl, h, nofun⟩
  | cons failure rest ih =>
    refine holds_request_bind.mpr fun reply => ?_
    have hlog := guarded_snoc (.headWorkerKey runPrefix failure.object.key) h trivial
      reply
    rcases reply with e | state
    · refine ⟨_, rfl, hlog, fun outcome failure hending hgood => ?_⟩
      cases hending
      exact absurd hgood hpoll
    · cases state with
      | missing => exact ih hlog
      | present =>
        refine ⟨_, rfl, hlog, fun outcome failure hending hgood => ?_⟩
        cases hending
        exact absurd hgood hpublished

/-- A watch of any length ends with the deletion of its Pod. -/
theorem watchAndDelete_holds (hid : IsControlIdentifier id)
    {turn : Step Price (Option (Outcome × Option β))} (hgood : ¬ good .cleanupFailed)
    (hturn : ∀ past : Log Price, (∀ e ∈ past, Guarded key e) → turn.Holds past (Checks good key))
    (h : ∀ e ∈ past, Guarded key e) (turns started : ℕ) :
    (watchAndDelete turns turn id started).Holds past fun r log =>
      ∃ watchdog, r = .ok watchdog ∧ Released id key log ∧
        (good watchdog.outcome → Deleted id log ∧ Seen key log) := by
  have hloop : (loop turn turns).Holds past fun r log => ∃ ending, r = .ok ending ∧
      (∀ e ∈ log, Guarded key e) ∧ (good ending.1 → Seen key log) := by
    refine holds_loop (fun past (h : ∀ e ∈ past, Guarded key e) => ?_) h turns
    refine (hturn past h).imp ?_
    rintro _ log ⟨ending, rfl, hlog, hseen⟩
    cases ending with
    | none => exact hlog
    | some ending => exact ⟨ending, rfl, hlog, hseen ending.1 ending.2 rfl⟩
  refine holds_bind.mpr (hloop.imp ?_)
  rintro _ log ⟨⟨outcome, failure⟩, rfl, hlog, hseen⟩
  refine holds_bind.mpr (((cleanUp_holds hid hlog).and (holds_extends _ log)).imp ?_)
  rintro _ deletedLog ⟨⟨termination, rfl, hreleased, hdeleted⟩, hsafe⟩
  refine holds_request_bind.mpr fun now => holds_request_bind.mpr fun completedAtMs => ?_
  have hsub : deletedLog ⊆
      deletedLog ++ [⟨Request.instant, now⟩] ++ [⟨Request.unixTimeMs, completedAtMs⟩] :=
    fun e he => List.mem_append_left _ (List.mem_append_left _ he)
  refine ⟨_, rfl, ⟨?_, hreleased.asked.mono hsub⟩, fun houtcome => ?_⟩
  · exact guarded_snoc .unixTimeMs
      (guarded_snoc .instant hreleased.guarded trivial now) trivial completedAtMs
  · by_cases htermination : termination = .succeeded
    · simp only [htermination, if_true] at houtcome
      exact ⟨(hdeleted htermination).mono hsub,
        (hseen houtcome).mono fun e he => hsub (hsafe.subset he)⟩
    · simp only [htermination, if_false] at houtcome
      exact absurd houtcome hgood

end Checks

/-! ### After the deletion -/

/-- What comes after the deletion: the log of a Pod that has been released, and what is known of
a run that ended well. -/
structure Settled (id key : String) (good : Prop) (log : Log Price) : Prop
    extends Released id key log where
  success : good → Deleted id log ∧ Seen key log

theorem Settled.concluded {good : Prop} {result : CliResult Unit}
    (h : Settled id key good log) (hresult : result = .ok () → good) :
    Concluded id key result log :=
  .inl ⟨h.guarded, h.asked, fun hok => h.success (hresult hok)⟩

theorem Settled.append {good : Prop} {log' : Log Price} (h : Settled id key good log)
    (hsafe : log <+: log') (hguarded : ∀ e ∈ log', Guarded key e) :
    Settled id key good log' :=
  { guarded := hguarded
    asked := h.asked.mono hsafe.subset
    success := fun hgood => ⟨(h.success hgood).1.mono hsafe.subset,
      (h.success hgood).2.mono hsafe.subset⟩ }

theorem Settled.snoc {good : Prop} (h : Settled id key good log) (request : Request Price)
    (hcovered : IsCovered request) (reply : Reply request) :
    Settled id key good (log ++ [⟨request, reply⟩]) :=
  h.append (List.prefix_append log _) (guarded_snoc request h.guarded hcovered reply)

theorem settled_holds {good : Prop} (h : Settled id key good past) (hp : p.Asks IsCovered) :
    p.Holds past fun _ log => Settled id key good log :=
  (guarded_holds h.guarded hp).imp fun _ _ hlog => h.append hlog.1 hlog.2

theorem conclude_holds {good : Prop} {record : WatchRecord Price}
    (h : Settled id key good past)
    (hrecord : record.outcome = .completed → record.podTermination = .succeeded → good)
    (path : String) (receipt : Receipt Price) :
    (conclude path receipt record).Holds past (Concluded id key) := by
  refine holds_request_bind.mpr fun written => ?_
  have hwritten := h.snoc (.write path receipt) trivial written
  rcases written with e | written
  · exact hwritten.concluded nofun
  refine holds_request_bind.mpr fun printed => ?_
  have hprinted := hwritten.snoc (.print receipt) trivial printed
  rcases printed with e | printed
  · exact hprinted.concluded nofun
  refine hprinted.concluded fun hok => ?_
  obtain ⟨houtcome, htermination⟩ := not_not.mp (throwIf_eq_ok.mp hok)
  exact hrecord houtcome htermination

/-! ### The three commands -/

/-- What a command does with an admitted Pod accounts for it. -/
def Supervises (key : String) (supervise : LaunchedPod Price → Step Price Unit) : Prop :=
  ∀ {id : String} {past : Log Price} (launched : LaunchedPod Price), IsControlIdentifier id →
    launched.pod.id = id → Pending id key past →
    (supervise launched).Holds past (Concluded id key)

theorem supervisePod_holds (hid : IsControlIdentifier id) {prepared : PreparedLaunch Price}
    {launched : LaunchedPod Price} {supervision : SupervisionRequest Price}
    (hpod : launched.pod.id = id) (hkey : supervision.completionKey.val = key)
    (h : ∀ e ∈ past, Guarded key e) (turns : ℕ) (options : LaunchOptions Price) :
    (supervisePod prices reading turns options prepared launched supervision).Holds past
      fun r log => ∃ receipt, r = .ok receipt ∧
        Settled id key (receipt.outcome = .completed) log := by
  have hturn (past : Log Price) (h : ∀ e ∈ past, Guarded key e) :
      (supervisionTurn prices reading options prepared.started launched.pod supervision).Holds
        past (Checks (· = .completed) key) := by
    refine firstEnding_holds (fun check hcheck past h => ?_) h
    simp only [List.mem_cons, List.not_mem_nil, or_false] at hcheck
    rcases hcheck with rfl | rfl | rfl | rfl
    · exact checkLimits_holds h _ _ _ _ nofun nofun
    · exact checkKey_holds h hkey _ nofun
    · exact checkWorkerFailure_holds h _ _ nofun nofun nofun
    · exact checkPod_holds h _ nofun nofun
  subst hpod
  refine holds_bind.mpr ((watchAndDelete_holds hid nofun hturn h turns _).imp ?_)
  rintro _ log ⟨watchdog, rfl, hreleased, hsuccess⟩
  exact ⟨_, rfl, hreleased, hsuccess⟩

theorem superviseWorkers_supervises {options : PodLaunchOptions Price}
    (hsafe : IsSafeRelativePath options.runPrefix) (turns : ℕ)
    (prepared : PreparedLaunch Price) :
    Supervises prepared.completionKey
      (superviseWorkers prices reading turns options prepared) := by
  intro id past launched hid hpod h
  subst hpod
  refine holds_bind.mpr (stageOrDelete_holds hid
    (stageWorkerObservation_holds h options launched.pod)
    (fun bytes log hstaged hobservation => ?_)
    (fun e log hreleased => Concluded.of_error (.inl hreleased) rfl))
  have hfailure : IsSafeRelativePath (options.attemptFile "failed.json") :=
    isSafeRelativePath_sibling hobservation (by decide) (by decide)
  refine holds_bind.mpr ?_
  rw [safePath_eq_ok hsafe]
  refine holds_bind.mpr ?_
  by_cases hkey : IsSafeRelativePath prepared.completionKey
  · rw [safePath_eq_ok hkey]
    refine holds_bind.mpr ?_
    rw [safePath_eq_ok hfailure]
    refine continues_bind (digestFile_holds (hstaged.pending hkey) _) (fun digest log h => ?_)
      (fun e log hend => .of_error hend rfl)
    refine holds_bind.mpr ((supervisePod_holds hid rfl rfl h.guarded turns _).imp ?_)
    rintro _ log ⟨receipt, rfl, hsettled⟩
    exact conclude_holds hsettled (fun houtcome _ => houtcome) _ _
  · cases hsafe : safePath prepared.completionKey with
    | error e => exact .inr (hstaged.leaked hkey)
    | ok path => exact absurd (isSafeRelativePath_of_safePath hsafe) hkey

theorem superviseConformance_supervises {options : ConformanceLaunchOptions Price}
    {prepared : PreparedLaunch Price} (hsafe : IsSafeRelativePath options.runPrefix)
    (hkey : IsSafeRelativePath prepared.completionKey) (turns : ℕ)
    (candidate : ConformanceCandidate) :
    Supervises prepared.completionKey
      (superviseConformance prices reading turns options candidate prepared) := by
  intro id past launched hid hpod h
  subst hpod
  refine holds_bind.mpr (stageOrDelete_holds hid
    (stageObservation_holds h options.toLaunchOptions candidate.accelerator _ launched.pod)
    (fun bytes log hstaged _ => ?_)
    (fun e log hreleased => Concluded.of_error (.inl hreleased) rfl))
  refine holds_bind.mpr ?_
  rw [safePath_eq_ok hsafe]
  refine holds_bind.mpr ?_
  rw [safePath_eq_ok hkey]
  refine holds_bind.mpr
    ((supervisePod_holds hid rfl rfl (hstaged.pending hkey).guarded turns _).imp ?_)
  rintro _ log ⟨receipt, rfl, hsettled⟩
  exact conclude_holds hsettled (fun houtcome _ => houtcome) _ _

theorem abandonChallenge_holds (hid : IsControlIdentifier id) {launched : LaunchedPod Price}
    (hpod : launched.pod.id = id) (h : ∀ e ∈ past, Guarded key e)
    (options : StorageChallengeOptions Price) (prepared : PreparedLaunch Price)
    (launch : ChallengeLaunch) :
    (abandonChallenge prices options prepared launch launched).Holds past (Concluded id key) := by
  subst hpod
  refine holds_bind.mpr ((cleanUp_holds hid h).imp ?_)
  rintro _ log ⟨termination, rfl, hreleased, -⟩
  have hsettled : Settled launched.pod.id key False log := ⟨hreleased, False.elim⟩
  refine holds_request_bind.mpr fun now => holds_request_bind.mpr fun completedAtMs =>
    holds_request_bind.mpr fun written => ?_
  have hend := ((hsettled.snoc .instant trivial now).snoc
    .unixTimeMs trivial completedAtMs).snoc
    (.write prepared.paths.output _) trivial written
  rcases written with e | written
  · exact hend.concluded nofun
  · exact hend.concluded nofun

theorem verifyOutput_holds {good : Prop} (h : Settled id key good past)
    (runPrefix : SafeRelativePath) (object : CloudObjectRef)
    {compare : Step Price (CliResult Bool)} (hcompare : compare.Asks IsCovered)
    (verified mismatched unfetched : Outcome) :
    (verifyOutput runPrefix object compare verified mismatched unfetched).Holds past fun r log =>
      Settled id key good log ∧
        ∀ result, r = .ok result → result.1 ∈ [verified, mismatched, unfetched] := by
  refine holds_request_bind.mpr fun directory => ?_
  have hdirectory := h.snoc .temporaryDirectory trivial directory
  rcases directory with e | directory
  · exact ⟨hdirectory, nofun⟩
  refine holds_request_bind.mpr fun fetched => ?_
  have hfetched := hdirectory.snoc (.getWorkerOutput runPrefix object) trivial fetched
  rcases fetched with e | fetched
  · refine ⟨hfetched, fun result hresult => ?_⟩
    cases hresult
    simp
  refine holds_bind.mpr ((settled_holds hfetched hcompare).imp fun compared log hlog => ?_)
  rcases compared with e | (e | same)
  · exact ⟨hlog, nofun⟩
  · exact ⟨hlog, nofun⟩
  · refine ⟨hlog, fun result hresult => ?_⟩
    cases hresult
    split <;> simp

theorem verifyResponse_holds {good : Prop} (h : Settled id key good past)
    (launch : ChallengeLaunch) (outcome : Outcome) :
    (verifyResponse launch outcome).Holds past fun r log => Settled id key good log ∧
      ∀ result, r = .ok result → result.1 = .completed →
        outcome = .responsePublished ∨ outcome = .completed := by
  unfold verifyResponse
  split
  · next hpublished =>
    refine (verifyOutput_holds h _ _ (request_asks trivial) _ _ _).imp ?_
    rintro r log ⟨hlog, -⟩
    exact ⟨hlog, fun _ _ _ => .inl hpublished⟩
  · refine ⟨h, fun result hresult hcompleted => ?_⟩
    cases hresult
    exact .inr hcompleted

theorem verifyFailure_holds {good : Prop} (h : Settled id key good past)
    (launch : ChallengeLaunch) (code : Option String) (outcome : Outcome) :
    (verifyFailure launch code outcome).Holds past fun r log => Settled id key good log ∧
      ∀ result, r = .ok result → result.1 = .completed → outcome = .completed := by
  unfold verifyFailure
  split
  · split
    · refine (verifyOutput_holds h _ _ (request_asks trivial) _ _ _).imp ?_
      rintro r log ⟨hlog, hresult⟩
      refine ⟨hlog, fun result hr hcompleted => ?_⟩
      have hmem := hresult result hr
      rw [hcompleted] at hmem
      exact absurd hmem (by decide)
    · exact ⟨h, fun result hresult hcompleted => by cases hresult; cases hcompleted⟩
  · refine ⟨h, fun result hresult hcompleted => ?_⟩
    cases hresult
    exact hcompleted

theorem superviseChallenge_supervises (turns : ℕ) (options : StorageChallengeOptions Price)
    (launch : ChallengeLaunch) (prepared : PreparedLaunch Price)
    (hkey : launch.challenge.response.key.val = prepared.completionKey) :
    Supervises prepared.completionKey
      (superviseChallenge prices reading turns options launch prepared) := by
  intro id past launched hid hpod h
  subst hpod
  refine holds_request_bind.mpr fun uploaded => ?_
  have hlog := guarded_snoc (.putObject launch.runPrefix launch.challenge.challenge)
    h.guarded trivial uploaded
  rcases uploaded with e | uploaded
  · exact abandonChallenge_holds hid rfl hlog options prepared launch
  have hturn (past : Log Price) (h : ∀ e ∈ past, Guarded prepared.completionKey e) :
      (challengeTurn prices reading options.toLaunchOptions prepared.started launched.pod
        launch).Holds past
        (Checks (fun o => o = .responsePublished ∨ o = .completed) prepared.completionKey) := by
    refine firstEnding_holds (fun check hcheck past h => ?_) h
    simp only [List.mem_cons, List.not_mem_nil, or_false] at hcheck
    rcases hcheck with rfl | rfl | rfl | rfl
    · exact checkLimits_holds h _ _ _ _ (by decide) (by decide)
    · exact checkKey_holds h hkey _ (by decide)
    · exact checkFailureKeys_holds h _ _ (by decide) (by decide)
    · exact checkPod_holds h _ (by decide) (by decide)
  refine holds_bind.mpr ((watchAndDelete_holds hid (by decide) hturn hlog turns _).imp ?_)
  rintro _ log ⟨watchdog, rfl, hreleased, hsuccess⟩
  refine holds_bind.mpr ((verifyResponse_holds ⟨hreleased, hsuccess⟩ launch _).imp ?_)
  rintro (e | ⟨outcome, responseVerified⟩) log ⟨hsettled, hresponse⟩
  · exact hsettled.concluded nofun
  refine holds_bind.mpr ((verifyFailure_holds hsettled launch _ outcome).imp ?_)
  rintro (e | ⟨outcome', failureVerified⟩) log ⟨hsettled, hfailure⟩
  · exact hsettled.concluded nofun
  exact conclude_holds hsettled
    (fun hcompleted _ => hresponse _ rfl (hfailure _ rfl hcompleted)) _ _

/-! ### Whole runs -/

theorem podSpecification_yields (options : PodLaunchOptions Price) :
    (podSpecification prices options).Yields fun _ => IsSafeRelativePath options.runPrefix :=
  yields_bind (yields_any _) fun _ _ => yields_bind (yields_any _) fun _ _ =>
    yields_bind (yields_any _) fun _ _ => yields_bind (yields_any _) fun _ _ =>
    yields_bind (yields_any _) fun _ _ => yields_bind (yields_any _) fun _ _ =>
    yields_bind (yields_lift fun _ => isSafeRelativePath_of_safePath) fun _ hsafe =>
    fun _ _ _ => hsafe

theorem preparePod_yields (options : PodLaunchOptions Price) :
    (preparePod prices options).Yields fun _ => IsSafeRelativePath options.runPrefix :=
  yields_bind (yields_any _) fun _ _ => yields_bind (yields_any _) fun _ _ =>
    yields_bind (podSpecification_yields options) fun _ hsafe => fun _ _ _ => hsafe

theorem prepareLaunch_yields (options : LaunchOptions Price) (paths : ReceiptPaths)
    (specification : PodCreateSpec Price) (bytes : ℕ) (completionKey : String) :
    (prepareLaunch options paths specification bytes completionKey).Yields fun prepared =>
      prepared.completionKey = completionKey := by
  refine yields_bind (yields_any _) fun _ _ => yields_bind (yields_any _) fun _ _ =>
    yields_bind (yields_any _) fun _ _ => yields_bind (yields_any _) fun _ _ => ?_
  rintro _ prepared ⟨⟩
  rfl

theorem prepareConformancePod_yields (options : ConformanceLaunchOptions Price) :
    (prepareConformancePod prices options).Yields fun prepared =>
      IsSafeRelativePath options.runPrefix ∧ IsSafeRelativePath prepared.1.completionKey := by
  have hspecification : (conformancePodSpecification prices options).Yields fun _ =>
      IsSafeRelativePath options.runPrefix ∧
        IsSafeRelativePath ("conformance/results/" ++ options.runId ++ ".json") :=
    yields_bind (yields_any _) fun _ _ => yields_bind (yields_any _) fun _ _ =>
      yields_bind (yields_any _) fun _ _ => yields_bind (yields_any _) fun _ _ =>
      yields_bind (yields_any _) fun _ _ => yields_bind (yields_any _) fun _ _ =>
      yields_bind (yields_lift fun _ => isSafeRelativePath_of_safePath) fun _ hsafe =>
      yields_bind (yields_lift fun _ => isSafeRelativePath_of_safePath) fun _ hkey =>
      fun _ _ _ => ⟨hsafe, hkey⟩
  refine yields_bind (yields_any _) fun _ _ => yields_bind (yields_any _) fun _ _ =>
    yields_bind hspecification fun _ hspec => yields_bind (yields_any _) fun _ _ =>
    yields_bind (yields_any _) fun _ _ => yields_bind (yields_any _) fun _ _ =>
    yields_bind (yields_any _) fun _ _ => yields_bind (yields_any _) fun _ _ =>
    yields_bind (prepareLaunch_yields _ _ _ _ _) fun prepared hkey => ?_
  rintro _ result ⟨⟩
  exact ⟨hspec.1, hkey ▸ hspec.2⟩

theorem prepareChallenge_yields (options : StorageChallengeOptions Price) :
    (prepareChallenge prices options).Yields fun prepared =>
      prepared.2.challenge.response.key.val = prepared.1.completionKey := by
  refine yields_bind (yields_any _) fun _ _ => yields_bind (yields_any _) fun challenge _ =>
    yields_bind (yields_any _) fun _ _ => yields_bind (yields_any _) fun _ _ =>
    yields_bind (yields_any _) fun _ _ => yields_bind (yields_any _) fun _ _ =>
    yields_bind (yields_any _) fun _ _ => yields_bind (yields_any _) fun _ _ =>
    yields_bind (yields_any _) fun _ _ => yields_bind (yields_any _) fun _ _ =>
    yields_bind (prepareLaunch_yields _ _ _ _ _) fun prepared hkey => ?_
  rintro _ result ⟨⟩
  exact hkey.symm

theorem prepare_yields (turns : ℕ) (command : CreateCommand Price) :
    (prepare prices reading turns command).Yields fun prepared =>
      Supervises prepared.1.completionKey prepared.2 := by
  cases command with
  | runPod options =>
    refine yields_bind (preparePod_yields options) fun prepared hsafe => ?_
    rintro _ result ⟨⟩
    exact superviseWorkers_supervises hsafe turns prepared
  | conformancePod options =>
    refine yields_bind (prepareConformancePod_yields options) fun prepared hpaths => ?_
    rintro _ result ⟨⟩
    exact superviseConformance_supervises hpaths.1 hpaths.2 turns prepared.2
  | storageChallenge options =>
    refine yields_bind (prepareChallenge_yields options) fun prepared hkey => ?_
    rintro _ result ⟨⟩
    exact superviseChallenge_supervises turns options prepared.2 prepared.1 hkey

/-- From the scheduling of the Pod to the end of the command. -/
theorem launch_concluded (hid : IsControlIdentifier id) {turns : ℕ}
    {prepared : PreparedLaunch Price} {supervise : LaunchedPod Price → Step Price Unit}
    (hsupervise : Supervises prepared.completionKey supervise) {result : CliResult Unit}
    (hlog : Schedules id log)
    (h : (launchPod prices reading turns prepared >>= supervise).Returns log result) :
    Concluded id prepared.completionKey result log := by
  have hlaunch := holds_iff.mp
    (@launchPod_holds _ id prepared.completionKey prices reading hid turns prepared)
  obtain ⟨e, he, rfl⟩ | ⟨before, rest, launched, rfl, hbefore, hrest⟩ := h.bind_cases
  · exact Concluded.of_error (hlaunch _ _ he hlog).1 rfl
  · have hfirst : Schedules id before := by
      obtain ⟨specification, terminateAfter, after, heq⟩ := hlog
      cases hbefore with
      | ask hnext =>
        rw [List.cons_append] at heq
        exact ⟨_, _, _, by rw [(List.cons.inj heq).1]⟩
    obtain ⟨hpending, hpod⟩ := hlaunch _ _ hbefore hfirst
    exact holds_iff.mp (hsupervise launched hid (hpod launched rfl) hpending) _ _ hrest

/-- The scheduling itself is neither a deletion nor a look at the store. -/
theorem accounted_schedule_cons {specification : PodCreateSpec Price} {terminateAfter : String}
    {reply : ControlResult String} {result : CliResult Unit} :
    Accounted id key (⟨Request.schedulePod specification terminateAfter, reply⟩ :: log) result ↔
      Accounted id key log result := by
  have hsub := List.subset_cons_self
    (⟨Request.schedulePod specification terminateAfter, reply⟩ : Exchange (@Reply Price)) log
  have hmem {request : Request Price} {r : Reply request}
      (hne : request ≠ .schedulePod specification terminateAfter)
      (h : ⟨request, r⟩ ∈ (⟨Request.schedulePod specification terminateAfter, reply⟩ :: log :
        Log Price)) : ⟨request, r⟩ ∈ log :=
    (List.mem_cons.mp h).resolve_left fun heq => hne (congrArg Sigma.fst heq)
  refine ⟨fun h => ⟨?_, fun hok => ⟨?_, ?_⟩⟩, fun h => ⟨h.asked.mono hsub, fun hok => ?_⟩⟩
  · obtain ⟨r, hr⟩ := h.asked
    exact ⟨r, hmem nofun hr⟩
  · obtain ⟨r, hr, hgone⟩ := (h.success hok).1
    exact ⟨r, hmem nofun hr, hgone⟩
  · obtain ⟨runPrefix, completionKey, hkey, hr⟩ := (h.success hok).2
    exact ⟨runPrefix, completionKey, hkey, hmem nofun hr⟩
  · exact (h.success hok).imp (·.mono hsub) (·.mono hsub)

/-- **A command accounts for its Pod exactly when every exchange after the scheduling is
guarded.** The command was prepared, and then the control plane scheduled the Pod. -/
theorem create_accounts {turns : ℕ} {command : CreateCommand Price}
    {before after : Log Price} {prepared : PreparedLaunch Price}
    {supervise : LaunchedPod Price → Step Price Unit} {specification : PodCreateSpec Price}
    {terminateAfter : String} {result : CliResult Unit}
    (hprepared : (prepare prices reading turns command).Returns before
      (.ok (prepared, supervise)))
    (h : (create prices reading turns command).Returns
      (before ++ ⟨Request.schedulePod specification terminateAfter,
        (Except.ok id : ControlResult String)⟩ :: after) result)
    (hid : IsControlIdentifier id) :
    Accounted id prepared.completionKey after result ↔
      ∀ e ∈ after, Guarded prepared.completionKey e := by
  have hrun := hprepared.bind_inv h
  have hconcluded := launch_concluded hid (prepare_yields turns command before _ hprepared)
    ⟨_, _, _, rfl⟩ hrun
  rw [← accounted_schedule_cons, hconcluded.iff, List.forall_mem_cons]
  exact and_iff_right trivial

/-- Every run of a command ends while it is prepared, or schedules one Pod first. -/
theorem create_cases {turns : ℕ} {command : CreateCommand Price} {result : CliResult Unit}
    (h : (create prices reading turns command).Returns log result) :
    (∃ e, (prepare prices reading turns command).Returns log (.error e) ∧ result = .error e) ∨
      ∃ before after prepared supervise, ∃ reply : ControlResult String,
        (prepare prices reading turns command).Returns before (.ok (prepared, supervise)) ∧
          log = before ++ ⟨Request.schedulePod prepared.specification
            prepared.requestedTerminateAfter, reply⟩ :: after := by
  obtain ⟨e, he, rfl⟩ | ⟨before, rest, ⟨prepared, supervise⟩, rfl, hbefore, hrest⟩ :=
    h.bind_cases
  · exact .inl ⟨e, he, rfl⟩
  · cases hrest with
    | @ask _ _ reply after _ _ =>
      exact .inr ⟨before, after, prepared, supervise, reply, hbefore, rfl⟩

/-! ### A leaked Pod -/

theorem returns_scheduled (hid : IsControlIdentifier id) (specification : PodCreateSpec Price)
    (terminateAfter : String) :
    (control (schedulePodWithTermination specification terminateAfter)).Returns
      [⟨Request.schedulePod specification terminateAfter, (Except.ok id : ControlResult String)⟩]
      (.ok { podId := id, terminateAfter := terminateAfter }) := by
  have hscheduled : (scheduledPod (.ok id) terminateAfter).mapError CliError.control =
      .ok { podId := id, terminateAfter := terminateAfter } := by
    rw [scheduledPod_ok hid]
    rfl
  refine .ask (show Returns (Program.done ((scheduledPod (.ok id) terminateAfter).mapError
    CliError.control)) [] _ from ?_)
  rw [hscheduled]
  exact .done _

variable {prepared : PreparedLaunch Price}

/-- The scheduled Pod is recorded, and the record cannot be read back. -/
def unreadLog (prepared : PreparedLaunch Price) (id : String) (e : CliError) : Log Price :=
  [⟨Request.write prepared.paths.create
      (.schedule { podId := id, terminateAfter := prepared.requestedTerminateAfter }),
      (Except.ok () : CliResult Unit)⟩,
    ⟨Request.digestFile prepared.paths.create, (Except.error e : CliResult (ℕ × Digest))⟩]

/-- Whatever was prepared, the command then returns and leaves the Pod running. -/
theorem create_unread {turns : ℕ} {command : CreateCommand Price} {before : Log Price}
    {supervise : LaunchedPod Price → Step Price Unit}
    (hprepared : (prepare prices reading turns command).Returns before
      (.ok (prepared, supervise))) (hid : IsControlIdentifier id) (e : CliError) :
    (create prices reading turns command).Returns
      (before ++ ⟨Request.schedulePod prepared.specification prepared.requestedTerminateAfter,
        (Except.ok id : ControlResult String)⟩ :: unreadLog prepared id e) (.error e) := by
  refine hprepared.bind (Returns.bind_error
    ((returns_scheduled hid prepared.specification prepared.requestedTerminateAfter).bind ?_))
  exact .ask (.ask (.done _))

/-- A Pod that could not be recorded is deleted. -/
theorem returns_cleanUp (hid : IsControlIdentifier id) :
    (cleanUp id : Step Price CleanupOutcome).Returns
      [⟨Request.deletePod id, (Except.ok () : ControlResult Unit)⟩] (.ok .succeeded) := by
  have hdelete : (deletePod id : Control Price Unit).Returns
      [⟨Request.deletePod id, (Except.ok () : ControlResult Unit)⟩] (.ok ()) := by
    unfold deletePod
    rw [validateIdentifier_ok hid]
    exact .ask (.done _)
  have hdeleted : (deletePodWithRetries id : Step Price Bool).Returns
      [⟨Request.deletePod id, (Except.ok () : ControlResult Unit)⟩] (.ok true) :=
    hdelete.attempt.bind (.done _)
  exact hdeleted.bind (.done _)

/-- The record of the scheduled Pod cannot be written, and the Pod is deleted. -/
def unrecordedLog (prepared : PreparedLaunch Price) (id : String) (e : CliError) : Log Price :=
  [⟨Request.write prepared.paths.create
      (.schedule { podId := id, terminateAfter := prepared.requestedTerminateAfter }),
      (Except.error e : CliResult Unit)⟩,
    ⟨Request.deletePod id, (Except.ok () : ControlResult Unit)⟩]

theorem create_unrecorded {turns : ℕ} {command : CreateCommand Price} {before : Log Price}
    {supervise : LaunchedPod Price → Step Price Unit}
    (hprepared : (prepare prices reading turns command).Returns before
      (.ok (prepared, supervise))) (hid : IsControlIdentifier id) (e : CliError) :
    (create prices reading turns command).Returns
      (before ++ ⟨Request.schedulePod prepared.specification prepared.requestedTerminateAfter,
        (Except.ok id : ControlResult String)⟩ :: unrecordedLog prepared id e)
      (.error (.stateWrite e.text .succeeded)) := by
  refine hprepared.bind (Returns.bind_error
    ((returns_scheduled hid prepared.specification prepared.requestedTerminateAfter).bind
      (Returns.bind_error (.ask ?_))))
  exact (returns_cleanUp hid).bind (.done _)

end Logs

/-! ### Two conformance runs -/

def samplePrices : PriceArithmetic ℕ where
  isFinite _ := true
  isNegative _ := false
  above a b := b < a
  reaches a b := b ≤ a
  isPositive a := 0 < a
  costAfter price nanos := price * nanos / (3600 * 10 ^ 9)
  costAfterMillis price millis := price * millis / (3600 * 10 ^ 3)

def sampleReading : PodReading ℕ where
  readStatus _ := .error "not read"
  readPod _ := .error "not read"

def sampleVolume : NetworkVolume := ⟨"volume", "volume", 10, "EU-RO-1"⟩

def sampleDigest : Digest := ⟨String.ofList (List.replicate 64 'a'), by decide⟩

def sampleCandidate : ConformanceCandidate where
  executorImageRepository := "registry/worker"
  executorImageDigest := "sha256:" ++ sampleDigest.val
  accelerator := ⟨"runpod", "L4", "ada", "8.9", 1⟩

def sampleOptions : ConformanceLaunchOptions ℕ where
  volume := "volume.json"
  image := "registry/worker@sha256:" ++ sampleDigest.val
  gpuTypeId := "NVIDIA L4"
  name := "conformance"
  runPrefix := "runs/one"
  maximumHourlyPrice := 1
  maximumRuntimeSeconds := 3600
  maximumTotalComputeUsd := 5
  apiKeyEnvironment := "RUNPOD_API_KEY"
  accessKeyEnvironment := "RUNPOD_S3_ACCESS_KEY"
  secretKeyEnvironment := "RUNPOD_S3_SECRET_KEY"
  out := some "run.json"
  launchOut := some "launch.json"
  createOut := some "schedule.json"
  candidate := "candidate"
  runId := "one"

/-- Surroundings in which the conformance run can be prepared. -/
def sampleHost : (request : Request ℕ) → Reply request
  | .schedulePod _ _ => .ok "pod-1"
  | .getPod _ => .ok .null
  | .deletePod _ => .ok ()
  | .headObject _ _ => .ok .missing
  | .putObject _ _ => .ok ()
  | .headWorkerKey _ _ => .ok .missing
  | .getWorkerRuntimeEvent _ _ => .error (.other "absent")
  | .getWorkerOutput _ _ => .ok ()
  | .stageObservation _ _ _ => .ok 1
  | .reserve _ => .ok ()
  | .write _ _ => .ok ()
  | .digestFile _ => .ok (1, sampleDigest)
  | .loadBundle _ => .error (.other "absent")
  | .loadPolicy _ => .error (.other "absent")
  | .loadVolume _ => .ok sampleVolume
  | .loadCandidate _ => .ok sampleCandidate
  | .loadExecutorImageBuild _ => .error (.other "absent")
  | .conformanceInputObjects _ => .ok []
  | .prepareStorageChallenge _ => .error (.other "absent")
  | .responseMatches _ => .ok true
  | .failureMatches _ => .ok true
  | .temporaryDirectory => .ok ()
  | .print _ => .ok ()
  | .connectControl _ => .ok ()
  | .connectStore _ _ _ => .ok ()
  | .terminationDeadline _ => .ok "2026-01-01T01:00:00Z"
  | .instant => (0 : ℕ)
  | .unixTimeMs => (0 : U64)

def sampleCreate : CreateCommand ℕ := .conformancePod sampleOptions

theorem sample_isPrepared :
    ∃ before prepared supervise, (prepare samplePrices sampleReading 1 sampleCreate).Returns before
      (.ok (prepared, supervise)) := by
  have hvalue : ((prepare samplePrices sampleReading 1 sampleCreate).value sampleHost).isSome :=
    by decide +kernel
  obtain ⟨⟨prepared, supervise⟩, hsome⟩ := Option.isSome_iff_exists.mp hvalue
  obtain ⟨before, hbefore⟩ := exists_returns hsome
  exact ⟨before, prepared, supervise, hbefore⟩

/-- The conformance run whose Pod cannot be recorded accounts for it. -/
theorem unrecorded_accounts : ∃ before after prepared supervise result,
    (prepare samplePrices sampleReading 1 sampleCreate).Returns before
      (.ok (prepared, supervise)) ∧
    (create samplePrices sampleReading 1 sampleCreate).Returns
      (before ++ ⟨Request.schedulePod prepared.specification prepared.requestedTerminateAfter,
        (Except.ok "pod-1" : ControlResult String)⟩ :: after) result ∧
    Accounted "pod-1" prepared.completionKey after result := by
  obtain ⟨before, prepared, supervise, hprepared⟩ := sample_isPrepared
  have hid : IsControlIdentifier "pod-1" := by decide +kernel
  have hrun := create_unrecorded hprepared hid (.other "No space left on device (os error 28)")
  refine ⟨before, _, prepared, supervise, _, hprepared, hrun,
    (create_accounts hprepared hrun hid).mpr ?_⟩
  rintro e (_ | ⟨_, _ | ⟨_, he⟩⟩)
  · exact trivial
  · exact trivial
  · cases he

/-- The conformance run whose record cannot be read back returns at once: the deletion of its
Pod is never asked for. -/
theorem unread_leaks : ∃ before after prepared supervise result,
    (prepare samplePrices sampleReading 1 sampleCreate).Returns before
      (.ok (prepared, supervise)) ∧
    (create samplePrices sampleReading 1 sampleCreate).Returns
      (before ++ ⟨Request.schedulePod prepared.specification prepared.requestedTerminateAfter,
        (Except.ok "pod-1" : ControlResult String)⟩ :: after) result ∧
    IsControlIdentifier "pod-1" ∧ ¬ DeleteAsked "pod-1" after := by
  obtain ⟨before, prepared, supervise, hprepared⟩ := sample_isPrepared
  have hid : IsControlIdentifier "pod-1" := by decide +kernel
  refine ⟨before, _, prepared, supervise, _, hprepared,
    create_unread hprepared hid (.other "Input/output error (os error 5)"), hid, ?_⟩
  rintro ⟨reply, _ | ⟨_, _ | ⟨_, he⟩⟩⟩
  cases he

end LivefireRag.Launch
