import LivefireRag.ToolProvider.Sessions

/-!
# The session protocol along runs

`SessionProtocol` is what a client sees of a run: refusals change nothing, the handshake
comes first and once, session ids are fresh, a session is used between its open and its
close and within its grant.

`Follows` is the invariant behind it: how the state depends on the events so far. The
counter counts the opens, so the ids that were issued are the first names in order, and
the open sessions are those opened and not closed. `follows_step` carries it over one
line, and `serve_protocol` over a run in which no request is `Hazardous`.
-/

namespace LivefireRag.ToolProvider

open Machine Fallible Index Runs

/-- One line of a run. -/
abbrev Step := Event Provider Line Reply

def Reply.result : Reply → Option Json
  | .answered _ result => some result
  | _ => none

section Protocol

variable {Score : Type} (host : Host Score)

/-! ### The predicates on runs -/

/-- The line is a request of the method, and it is answered. -/
def Succeeds (method : String) (e : Step) : Prop :=
  e.label.method host = some method ∧ e.reply.result.isSome

instance (method : String) : DecidablePred (Succeeds host method) := fun e => by
  unfold Succeeds
  infer_instance

/-- The id that an open returns. -/
def openedId (e : Step) : Option String :=
  if e.label.method host = some "open" then
    e.reply.result.bind fun result => (result.get? "session_id").bind Json.asStr
  else none

/-- The id that a close closes. -/
def closedId (e : Step) : Option String :=
  if Succeeds host "close" e then e.label.sessionId host else none

def openedIds (run : List Step) : List String := run.filterMap (openedId host)

def closedIds (run : List Step) : List String := run.filterMap (closedId host)

/-- The answer is within what the open request was granted: its one tool, its number of
candidates, its size of a result. -/
structure CallGranted (opening calling : Line) (result : Json) : Prop where
  tool : ∃ tool, (opening.params host).get? "tools" = some (.array [tool]) ∧
    (calling.params host).get? "tool" = some tool
  topN : ∃ limit topN : U64,
    (((opening.params host).member "limits").get? "max_candidates").bind Json.asU64 =
      some limit ∧
    (((calling.params host).member "arguments").get? "top_n").bind Json.asU64 = some topN ∧
    topN ≤ limit
  output : ∃ (limit : U64) (output : Json),
    (((opening.params host).member "limits").get? "result_bytes").bind Json.asU64 =
      some limit ∧
    result = .mkObject [("response_kind", .string "call"), ("output", output)] ∧
    (host.encode output).length ≤ (limit : ℕ)

/-- A close request that passes every check that does not depend on the sessions. -/
def Line.Closes (line : Line) (sessionId : String) : Prop :=
  ∃ request envelope, host.parse line.text = some request ∧
    readEnvelope line.env request = .ok envelope ∧ envelope.method = "close" ∧
    sessionOnly envelope.params = .ok sessionId

/-- The request of the event is no hazard. -/
def Harmless (e : Step) : Prop := ¬ Hazardous host e.label e.before

/-- **The session protocol** of a run. -/
structure SessionProtocol (run : List Step) : Prop where
  /-- An error leaves the state unchanged. -/
  refused_unchanged : ∀ e ∈ run, e.reply.result = none → e.after = e.before
  /-- Nothing but a handshake is answered before a handshake. -/
  handshake_first : ∀ pre e post, run = pre ++ e :: post → e.reply.result.isSome →
    Succeeds host "handshake" e ∨ ∃ earlier ∈ pre, Succeeds host "handshake" earlier
  handshake_once : run.countP (Succeeds host "handshake") ≤ 1
  /-- Every open returns an id. -/
  open_named : ∀ e ∈ run, Succeeds host "open" e → (openedId host e).isSome
  opened_fresh : (openedIds host run).Nodup
  /-- A session is used after its open and before its close. -/
  live : ∀ pre e post, run = pre ++ e :: post → ∀ method ∈ ["call", "health", "close"],
    Succeeds host method e → ∃ sessionId, e.label.sessionId host = some sessionId ∧
      sessionId ∈ openedIds host pre ∧ sessionId ∉ closedIds host pre
  call_granted : ∀ pre e post, run = pre ++ e :: post → Succeeds host "call" e →
    ∃ opening ∈ pre, (openedId host opening).isSome ∧
      openedId host opening = e.label.sessionId host ∧
      ∀ result ∈ e.reply.result, CallGranted host opening.label e.label result
  closed_once : (closedIds host run).Nodup
  /-- A session that is open can be closed. -/
  close_open : ∀ pre e post, run = pre ++ e :: post → ∀ sessionId,
    e.label.Closes host sessionId → sessionId ∈ openedIds host pre →
    sessionId ∉ closedIds host pre → Succeeds host "close" e

/-! ### The invariant -/

/-- The name of the `k + 1`-st session. -/
def issuedName (k : ℕ) : String := "fast-evidence-" ++ toString (k + 1)

theorem issuedName_injective : Function.Injective issuedName := by
  intro j k h
  have hrepr : (j + 1).repr = (k + 1).repr := String.append_right_inj _ |>.mp h
  have hchars := congrArg (fun s : String => Nat.ofDigitChars 10 s.toList 0) hrepr
  have hsucc : j + 1 = k + 1 := by
    simpa only [Nat.toList_repr, Nat.ofDigitChars_ten_toDigits] using hchars
  exact Nat.succ.inj hsucc

/-- How the state depends on the past. -/
structure Follows (past : List Step) (provider : Provider) : Prop where
  handshaken : provider.handshaken ↔ ∃ e ∈ past, Succeeds host "handshake" e
  handshake_once : past.countP (Succeeds host "handshake") ≤ 1
  issued : openedIds host past = (List.range provider.nextSession).map issuedName
  live : ∀ sessionId, (provider.sessions.get? sessionId).isSome ↔
    sessionId ∈ openedIds host past ∧ sessionId ∉ closedIds host past
  granted : ∀ sessionId session, provider.sessions.get? sessionId = some session →
    ∃ e ∈ past, openedId host e = some sessionId ∧ GrantedBy host (e.label.params host) session
  closed_opened : ∀ sessionId ∈ closedIds host past, sessionId ∈ openedIds host past
  closed_once : (closedIds host past).Nodup

theorem follows_new (providerRef : Json) : Follows host [] (Provider.new providerRef) where
  handshaken := by simp [Provider.new]
  handshake_once := by simp
  issued := rfl
  live sessionId := by simp [Provider.new, openedIds, SortedMap.get?_empty]
  granted sessionId session h := by
    rw [Provider.new, SortedMap.get?_empty] at h
    cases h
  closed_opened := nofun
  closed_once := List.nodup_nil

variable {host} {past : List Step} {e : Step} {provider : Provider}

theorem openedIds_concat (past : List Step) (e : Step) :
    openedIds host (past ++ [e]) = openedIds host past ++ (openedId host e).toList := by
  rw [openedIds, List.filterMap_append]
  cases h : openedId host e <;> simp [h, openedIds]

theorem closedIds_concat (past : List Step) (e : Step) :
    closedIds host (past ++ [e]) = closedIds host past ++ (closedId host e).toList := by
  rw [closedIds, List.filterMap_append]
  cases h : closedId host e <;> simp [h, closedIds]

theorem exists_mem_concat {p : Step → Prop} :
    (∃ e' ∈ past ++ [e], p e') ↔ (∃ e' ∈ past, p e') ∨ p e := by
  simp only [List.mem_append, List.mem_singleton, or_and_right, exists_or, exists_eq_left]

/-- A session once granted stays granted. -/
theorem Follows.granted_concat (h : Follows host past provider) {sessionId : String}
    {session : Session} (hget : provider.sessions.get? sessionId = some session) :
    ∃ e' ∈ past ++ [e], openedId host e' = some sessionId ∧
      GrantedBy host (e'.label.params host) session :=
  exists_mem_concat.mpr (.inl (h.granted sessionId session hget))

/-- An event that is no handshake, no open and no close and leaves the state leaves the
invariant. -/
theorem Follows.idle (h : Follows host past provider) (hshake : ¬ Succeeds host "handshake" e)
    (hopen : openedId host e = none) (hclose : closedId host e = none) :
    Follows host (past ++ [e]) provider where
  handshaken := by rw [exists_mem_concat, or_iff_left hshake]; exact h.handshaken
  handshake_once := by
    rw [List.countP_append, List.countP_singleton, if_neg (by simpa using hshake)]
    exact h.handshake_once
  issued := by rw [openedIds_concat, hopen, Option.toList_none, List.append_nil]; exact h.issued
  live sessionId := by
    rw [openedIds_concat, closedIds_concat, hopen, hclose, Option.toList_none, List.append_nil,
      List.append_nil]
    exact h.live sessionId
  granted _ _ hget := h.granted_concat hget
  closed_opened := by
    rw [openedIds_concat, closedIds_concat, hopen, hclose, Option.toList_none, List.append_nil,
      List.append_nil]
    exact h.closed_opened
  closed_once := by
    rw [closedIds_concat, hclose, Option.toList_none, List.append_nil]
    exact h.closed_once

/-! ### The step lemma -/

theorem openedId_of_method {method : String} (hmethod : e.label.method host = some method)
    (hne : method ≠ "open") : openedId host e = none := by
  rw [openedId, if_neg]
  rw [hmethod]
  exact fun h => hne (Option.some.inj h)

theorem not_succeeds_of_method {method other : String}
    (hmethod : e.label.method host = some method) (hne : method ≠ other) :
    ¬ Succeeds host other e :=
  fun h => hne (Option.some.inj (hmethod.symm.trans h.1))

theorem closedId_of_not_succeeds (h : ¬ Succeeds host "close" e) : closedId host e = none :=
  if_neg h

theorem not_succeeds_of_refused {method : String} (h : e.reply.result = none) :
    ¬ Succeeds host method e := by
  rintro ⟨-, hsome⟩
  rw [h] at hsome
  cases hsome

theorem openedId_of_refused (h : e.reply.result = none) : openedId host e = none := by
  rw [openedId, h]
  exact ite_self _

/-- The first handshake. -/
theorem Follows.handshake (h : Follows host past provider)
    (hsucceeds : Succeeds host "handshake" e) (hfirst : provider.handshaken = false) :
    Follows host (past ++ [e]) { provider with handshaken := true } := by
  have hopen : openedId host e = none := openedId_of_method hsucceeds.1 (by decide)
  have hclose : closedId host e = none :=
    closedId_of_not_succeeds (not_succeeds_of_method hsucceeds.1 (by decide))
  have hnone : past.countP (Succeeds host "handshake") = 0 := by
    refine List.countP_eq_zero.mpr fun e' hmem hsucceeds' => ?_
    have hshaken := h.handshaken.mpr ⟨e', hmem, by simpa using hsucceeds'⟩
    rw [hfirst] at hshaken
    cases hshaken
  have hopened : openedIds host (past ++ [e]) = openedIds host past := by
    rw [openedIds_concat, hopen, Option.toList_none, List.append_nil]
  have hclosed : closedIds host (past ++ [e]) = closedIds host past := by
    rw [closedIds_concat, hclose, Option.toList_none, List.append_nil]
  refine ⟨?_, ?_, ?_, ?_, fun _ _ hget => h.granted_concat hget, ?_, ?_⟩
  · exact iff_of_true rfl (exists_mem_concat.mpr (.inr hsucceeds))
  · rw [List.countP_append, hnone, Nat.zero_add, List.countP_singleton]
    split_ifs <;> omega
  · rw [hopened]
    exact h.issued
  · rw [hopened, hclosed]
    exact h.live
  · rw [hopened, hclosed]
    exact h.closed_opened
  · rw [hclosed]
    exact h.closed_once

/-- A session is opened. Its name is the next one, which no session before had. -/
theorem Follows.opened (h : Follows host past provider) {session : Session}
    (hmethod : e.label.method host = some "open") (hroom : (provider.nextSession : ℕ) + 1 < 2 ^ 64)
    (hissued : openedId host e = some (sessionName (provider.nextSession + 1)))
    (hgranted : GrantedBy host (e.label.params host) session) :
    Follows host (past ++ [e]) { provider with
      nextSession := provider.nextSession + 1
      sessions := provider.sessions.insert (sessionName (provider.nextSession + 1)) session } := by
  have hnext : ((provider.nextSession + 1 : U64) : ℕ) = provider.nextSession + 1 := by
    rw [Fin.val_add]
    exact Nat.mod_eq_of_lt hroom
  have hname : sessionName (provider.nextSession + 1) = issuedName provider.nextSession := by
    rw [sessionName, issuedName, hnext]
  have hshake : ¬ Succeeds host "handshake" e := not_succeeds_of_method hmethod (by decide)
  have hclose : closedId host e = none :=
    closedId_of_not_succeeds (not_succeeds_of_method hmethod (by decide))
  have hopened : openedIds host (past ++ [e]) =
      openedIds host past ++ [issuedName provider.nextSession] := by
    rw [openedIds_concat, hissued, hname, Option.toList_some]
  have hclosed : closedIds host (past ++ [e]) = closedIds host past := by
    rw [closedIds_concat, hclose, Option.toList_none, List.append_nil]
  have hfresh : issuedName provider.nextSession ∉ openedIds host past := by
    rw [h.issued, List.mem_map_of_injective issuedName_injective]
    exact List.not_mem_range_self
  rw [hname]
  refine ⟨?_, ?_, ?_, fun sessionId => ?_, fun sessionId granted hget => ?_, ?_, ?_⟩
  · rw [exists_mem_concat, or_iff_left hshake]
    exact h.handshaken
  · rw [List.countP_append, List.countP_singleton, if_neg (by simpa using hshake)]
    exact h.handshake_once
  · rw [hopened, h.issued, hnext, List.range_succ, List.map_append]
    rfl
  · rw [hopened, hclosed, List.mem_append, List.mem_singleton, SortedMap.get?_insert]
    split_ifs with heq
    · subst heq
      exact iff_of_true rfl ⟨.inr rfl, fun hmem => hfresh (h.closed_opened _ hmem)⟩
    · rw [or_iff_left heq]
      exact h.live sessionId
  · rw [SortedMap.get?_insert] at hget
    split_ifs at hget with heq
    · obtain rfl := Option.some.inj hget
      exact exists_mem_concat.mpr (.inr ⟨by rw [hissued, hname, heq], hgranted⟩)
    · exact h.granted_concat hget
  · rw [hopened, hclosed]
    exact fun sessionId hmem => List.mem_append_left _ (h.closed_opened sessionId hmem)
  · rw [hclosed]
    exact h.closed_once

/-- A session is closed. -/
theorem Follows.closed (h : Follows host past provider) {session : Session} {sessionId : String}
    (hsucceeds : Succeeds host "close" e) (hnamed : e.label.sessionId host = some sessionId)
    (hfound : provider.sessions.get? sessionId = some session) :
    Follows host (past ++ [e])
      { provider with sessions := provider.sessions.erase sessionId } := by
  have hshake : ¬ Succeeds host "handshake" e := not_succeeds_of_method hsucceeds.1 (by decide)
  have hopened : openedIds host (past ++ [e]) = openedIds host past := by
    rw [openedIds_concat, openedId_of_method hsucceeds.1 (by decide), Option.toList_none,
      List.append_nil]
  have hclosed : closedIds host (past ++ [e]) = closedIds host past ++ [sessionId] := by
    rw [closedIds_concat, closedId, if_pos hsucceeds, hnamed, Option.toList_some]
  obtain ⟨hwasOpened, hnotClosed⟩ := (h.live sessionId).mp (by rw [hfound]; rfl)
  refine ⟨?_, ?_, ?_, fun other => ?_, fun other granted hget => ?_, ?_, ?_⟩
  · rw [exists_mem_concat, or_iff_left hshake]
    exact h.handshaken
  · rw [List.countP_append, List.countP_singleton, if_neg (by simpa using hshake)]
    exact h.handshake_once
  · rw [hopened]
    exact h.issued
  · rw [hopened, hclosed, List.mem_append, List.mem_singleton, SortedMap.get?_erase]
    split_ifs with heq
    · exact iff_of_false nofun fun hlive => hlive.2 (.inr heq)
    · rw [or_iff_left heq]
      exact h.live other
  · rw [SortedMap.get?_erase] at hget
    split_ifs at hget
    exact h.granted_concat hget
  · rw [hopened, hclosed]
    intro other hmem
    obtain hmem | hmem := List.mem_append.mp hmem
    · exact h.closed_opened other hmem
    · rwa [List.mem_singleton.mp hmem]
  · rw [hclosed, List.nodup_append]
    refine ⟨h.closed_once, List.nodup_singleton _, fun other hmem other' hmem' heq => ?_⟩
    rw [List.mem_singleton.mp hmem'] at heq
    exact hnotClosed (heq ▸ hmem)

/-- A request of another method leaves the invariant. -/
theorem Follows.used (h : Follows host past provider) {method : String}
    (hmethod : e.label.method host = some method) (hshake : method ≠ "handshake")
    (hopen : method ≠ "open") (hclose : method ≠ "close") : Follows host (past ++ [e]) provider :=
  h.idle (not_succeeds_of_method hmethod hshake) (openedId_of_method hmethod hopen)
    (closedId_of_not_succeeds (not_succeeds_of_method hmethod hclose))

theorem Follows.refused (h : Follows host past provider) (hreply : e.reply.result = none) :
    Follows host (past ++ [e]) provider :=
  h.idle (not_succeeds_of_refused hreply) (openedId_of_refused hreply)
    (closedId_of_not_succeeds (not_succeeds_of_refused hreply))

/-- What an answered line does leaves the invariant. -/
theorem Follows.does (h : Follows host past provider) {result : Json} {after : Provider}
    (hreply : e.reply.result = some result) (hdoes : Does host e.label provider result after) :
    Follows host (past ++ [e]) after := by
  have hsome : e.reply.result.isSome := by rw [hreply]; rfl
  cases hdoes with
  | handshake method first => exact h.handshake ⟨method, hsome⟩ first
  | opened method _ granted room issued =>
    refine h.opened method room ?_ granted
    rw [openedId, if_pos method, hreply]
    exact issued
  | called method => exact h.used method (by decide) (by decide) (by decide)
  | healthy method => exact h.used method (by decide) (by decide) (by decide)
  | closed method _ named found => exact h.closed ⟨method, hsome⟩ named found

/-- A line that is no hazard is answered, and does what its method does, or refused. -/
theorem event_cases {line : Line} (hsafe : ¬ Hazardous host line provider) :
    (∃ result, (event (respond host) provider line).reply.result = some result ∧
      Does host line provider result (event (respond host) provider line).after) ∨
    (event (respond host) provider line).reply.result = none ∧
      (event (respond host) provider line).after = provider := by
  obtain ⟨result, after, hrespond, hdoes⟩ | ⟨error, hrespond⟩ := respond_spec hsafe
  · refine .inl ⟨result, ?_, ?_⟩
    · rw [event, hrespond]
      rfl
    · rw [event, hrespond]
      exact hdoes
  · refine .inr ⟨?_, ?_⟩
    · rw [event, hrespond]
      rfl
    · rw [event, hrespond]

/-- **The invariant is carried over a line.** -/
theorem follows_step (past : List Step) (provider : Provider) (line : Line)
    (h : Follows host past provider) (hsafe : Harmless host (event (respond host) provider line)) :
    Follows host (past ++ [event (respond host) provider line])
      (event (respond host) provider line).after := by
  have hline : ¬ Hazardous host line provider := hsafe
  obtain ⟨result, hreply, hdoes⟩ | ⟨hreply, hafter⟩ := event_cases hline
  · exact h.does hreply hdoes
  · rw [hafter]
    exact h.refused hreply

/-! ### Runs -/

/-- The id of a line that was written. -/
def responseId (response : Json) : Option String := (response.get? "id").bind Json.asStr

theorem responseId_answered (id : String) (result : Json) :
    ∃ response, (Reply.answered id result).response = some response ∧
      responseId response = some id :=
  ⟨_, rfl, by rw [responseId, Json.get?_mkObject (by simp) (.tail _ (.head _))]; rfl⟩

theorem responseId_refused (id : String) (error : ProviderError) :
    ∃ response, (Reply.refused id error).response = some response ∧
      responseId response = some id :=
  ⟨_, rfl, by rw [responseId, Json.get?_mkObject (by simp) (.tail _ (.head _))]; rfl⟩

/-- Every line is answered by a line with its id, in order. -/
theorem serve_responses {lines : List Line}
    (hsafe : ∀ e ∈ events (respond host) provider lines, Harmless host e) :
    (serve host provider lines).map responseId = lines.map fun line => some (line.id host) := by
  induction lines generalizing provider with
  | nil => rfl
  | cons line lines ih =>
    obtain ⟨hfirst, hrest⟩ := List.forall_mem_cons.mp hsafe
    have hline : ¬ Hazardous host line provider := hfirst
    have hresponse : ∃ response, (respond host line provider).1.response = some response ∧
        responseId response = some (line.id host) := by
      obtain ⟨result, after, hrespond, -⟩ | ⟨error, hrespond⟩ := respond_spec hline
      · rw [hrespond]
        exact responseId_answered _ _
      · rw [hrespond]
        exact responseId_refused _ _
    obtain ⟨response, hresponse, hid⟩ := hresponse
    rw [serve, hresponse]
    simp only [List.map_cons, hid, List.cons.injEq, true_and]
    exact ih hrest

variable {lines : List Line} {providerRef : Json}

/-- What holds at every event of a run without hazards. -/
theorem follows_before
    (hsafe : ∀ e ∈ events (respond host) (Provider.new providerRef) lines, Harmless host e)
    {pre post : List Step}
    (hrun : events (respond host) (Provider.new providerRef) lines = pre ++ e :: post) :
    Follows host pre e.before ∧
      ((∃ result, e.reply.result = some result ∧ Does host e.label e.before result e.after) ∨
        e.reply.result = none ∧ e.after = e.before) := by
  obtain ⟨hfollows, he⟩ := before_event follows_step
    (follows_new host providerRef) hsafe hrun
  refine ⟨hfollows, ?_⟩
  have hmem : e ∈ events (respond host) (Provider.new providerRef) lines := by
    rw [hrun]
    exact List.mem_append_right _ (List.mem_cons_self ..)
  have hline : ¬ Hazardous host e.label e.before := hsafe e hmem
  have hcases := event_cases hline
  rwa [← he] at hcases

/-- An answered line follows a handshake, or is it. -/
theorem Follows.handshake_or (h : Follows host past e.before) {result : Json} {after : Provider}
    (hreply : e.reply.result = some result) (hdoes : Does host e.label e.before result after) :
    Succeeds host "handshake" e ∨ ∃ earlier ∈ past, Succeeds host "handshake" earlier := by
  have hsome : e.reply.result.isSome := by rw [hreply]; rfl
  cases hdoes with
  | handshake method => exact .inl ⟨method, hsome⟩
  | opened _ handshaken => exact .inr (h.handshaken.mp handshaken)
  | called _ handshaken => exact .inr (h.handshaken.mp handshaken)
  | healthy _ handshaken => exact .inr (h.handshaken.mp handshaken)
  | closed _ handshaken => exact .inr (h.handshaken.mp handshaken)

/-- A session is used while it is open. -/
theorem Follows.used_live (h : Follows host past e.before) {result : Json} {after : Provider}
    (hdoes : Does host e.label e.before result after) {method : String}
    (hmethod : e.label.method host = some method) (huses : method ∈ ["call", "health", "close"]) :
    ∃ sessionId, e.label.sessionId host = some sessionId ∧
      sessionId ∈ openedIds host past ∧ sessionId ∉ closedIds host past := by
  have hlive : ∀ {sessionId session}, e.label.sessionId host = some sessionId →
      e.before.sessions.get? sessionId = some session → ∃ sessionId,
      e.label.sessionId host = some sessionId ∧
      sessionId ∈ openedIds host past ∧ sessionId ∉ closedIds host past := by
    intro sessionId session hnamed hfound
    exact ⟨sessionId, hnamed, (h.live sessionId).mp (by rw [hfound]; rfl)⟩
  have hother : ∀ {other}, e.label.method host = some other → other ∉ ["call", "health", "close"] →
      False := by
    intro other hother hnot
    rw [hmethod] at hother
    exact hnot (Option.some.inj hother ▸ huses)
  cases hdoes with
  | handshake method => exact absurd (by decide) (hother method)
  | opened method => exact absurd (by decide) (hother method)
  | called _ _ named found => exact hlive named found
  | healthy _ _ named found => exact hlive named found
  | closed _ _ named found => exact hlive named found

/-- A call keeps to what its session was granted when it was opened. -/
theorem Follows.call_granted (h : Follows host past e.before) {result : Json} {after : Provider}
    (hreply : e.reply.result = some result) (hdoes : Does host e.label e.before result after)
    (hmethod : e.label.method host = some "call") :
    ∃ opening ∈ past, (openedId host opening).isSome ∧
      openedId host opening = e.label.sessionId host ∧
      ∀ result ∈ e.reply.result, CallGranted host opening.label e.label result := by
  cases hdoes with
  | called _ _ named found hmembers within =>
    obtain ⟨opening, hopening, hid, hgranted⟩ := h.granted _ _ found
    refine ⟨opening, hopening, by rw [hid]; rfl, hid.trans named.symm, fun result' hresult => ?_⟩
    obtain rfl := Option.some.inj (hreply.symm.trans hresult)
    obtain ⟨topN, htopN, hle⟩ := within.topN
    obtain ⟨output, houtput, hbytes⟩ := within.output
    refine ⟨⟨_, hgranted.tool, ?_⟩, ⟨_, topN, hgranted.maxCandidates, ?_, hle⟩,
      ⟨_, output, hgranted.resultBytes, houtput, hbytes⟩⟩
    · rw [hmembers]
      exact within.tool
    · rw [hmembers]
      exact htopN
  | handshake method => exact absurd (hmethod.symm.trans method) (by decide)
  | opened method => exact absurd (hmethod.symm.trans method) (by decide)
  | healthy method => exact absurd (hmethod.symm.trans method) (by decide)
  | closed method => exact absurd (hmethod.symm.trans method) (by decide)

/-- An open that is answered returns an id. -/
theorem openedId_of_does {result : Json} {after : Provider}
    (hreply : e.reply.result = some result) (hdoes : Does host e.label e.before result after)
    (hmethod : e.label.method host = some "open") : (openedId host e).isSome := by
  cases hdoes with
  | opened method _ _ _ issued =>
    rw [openedId, if_pos method, hreply, Option.bind_some, issued]
    rfl
  | handshake method => exact absurd (hmethod.symm.trans method) (by decide)
  | called method => exact absurd (hmethod.symm.trans method) (by decide)
  | healthy method => exact absurd (hmethod.symm.trans method) (by decide)
  | closed method => exact absurd (hmethod.symm.trans method) (by decide)

/-- An id was returned by an open that was answered. -/
theorem answered_of_openedId {sessionId : String} (h : openedId host e = some sessionId) :
    e.reply.result.isSome ∧ ¬ Succeeds host "handshake" e := by
  unfold openedId at h
  split_ifs at h with hmethod
  · obtain ⟨result, hresult, -⟩ := Option.bind_eq_some_iff.mp h
    exact ⟨by rw [hresult]; rfl, not_succeeds_of_method hmethod (by decide)⟩

/-- A close of an open session is answered. -/
theorem close_answers {params : Json} {sessionId : String} {session : Session}
    (hshaken : provider.handshaken) (hnamed : sessionOnly params = .ok sessionId)
    (hfound : provider.sessions.get? sessionId = some session) :
    ∃ result after, close params provider = (.ok result, after) := by
  refine ⟨.mkObject [("response_kind", .string "close"), ("closed", .bool true)],
    { provider with sessions := provider.sessions.erase sessionId }, ?_⟩
  simp only [close, requireHandshake, bind_assoc, get_bind_run, hshaken, if_true, pure_bind, hnamed,
    check_ok_bind, modify_bind_run, hfound]
  rfl

theorem respond_closes {line : Line} {sessionId : String} {session : Session}
    (hline : line.Closes host sessionId) (hshaken : provider.handshaken)
    (hfound : provider.sessions.get? sessionId = some session) :
    Succeeds host "close" (event (respond host) provider line) := by
  obtain ⟨request, envelope, hrequest, henvelope, hmethod, hnamed⟩ := hline
  obtain ⟨result, after, hclose⟩ := close_answers hshaken hnamed hfound
  refine ⟨?_, ?_⟩
  · show line.method host = _
    rw [Line.method, hrequest, Option.bind_some, (readEnvelope_eq_ok henvelope).1, hmethod]
  · have hdispatch : dispatch host line.env envelope (host.encode request).length =
        close envelope.params := by
      unfold dispatch
      rw [hmethod]
      rfl
    have hhandle : handle host line.env request provider = (.ok result, after) := by
      rw [handle, henvelope, check_ok_bind, hdispatch, hclose]
    show ((respond host line provider).1.result).isSome
    unfold respond
    rw [hrequest]
    simp only [hhandle]
    rfl

/-- **The provider keeps the session protocol** along every run without hazards, and
answers every line by one line that carries its id. -/
theorem serve_protocol (host : Host Score) (providerRef : Json) (lines : List Line)
    (hsafe : ∀ e ∈ events (respond host) (Provider.new providerRef) lines, Harmless host e) :
    SessionProtocol host (events (respond host) (Provider.new providerRef) lines) ∧
      (serve host (Provider.new providerRef) lines).map responseId =
        lines.map fun line => some (line.id host) := by
  have hfinal := after_events follows_step (follows_new host providerRef) hsafe
  rw [List.nil_append] at hfinal
  have hearlier : ∀ pre e post, events (respond host) (Provider.new providerRef) lines =
      pre ++ e :: post → e.reply.result.isSome →
      Succeeds host "handshake" e ∨ ∃ earlier ∈ pre, Succeeds host "handshake" earlier := by
    intro pre e post hrun hsome
    obtain ⟨hfollows, ⟨result, hreply, hdoes⟩ | ⟨hreply, -⟩⟩ := follows_before hsafe hrun
    · exact hfollows.handshake_or hreply hdoes
    · rw [hreply] at hsome
      cases hsome
  refine ⟨⟨?_, hearlier, hfinal.handshake_once, ?_, ?_, ?_, ?_, hfinal.closed_once, ?_⟩,
    serve_responses hsafe⟩
  · intro e hmem hnone
    obtain ⟨pre, post, hrun⟩ := List.append_of_mem hmem
    obtain ⟨-, ⟨result, hreply, -⟩ | ⟨-, hafter⟩⟩ := follows_before hsafe hrun
    · rw [hreply] at hnone
      cases hnone
    · exact hafter
  · intro e hmem hsucceeds
    obtain ⟨pre, post, hrun⟩ := List.append_of_mem hmem
    obtain ⟨-, ⟨result, hreply, hdoes⟩ | ⟨hreply, -⟩⟩ := follows_before hsafe hrun
    · exact openedId_of_does hreply hdoes hsucceeds.1
    · exact absurd hsucceeds (not_succeeds_of_refused hreply)
  · rw [hfinal.issued]
    exact (List.nodup_range).map issuedName_injective
  · intro pre e post hrun method huses hsucceeds
    obtain ⟨hfollows, ⟨result, hreply, hdoes⟩ | ⟨hreply, -⟩⟩ := follows_before hsafe hrun
    · exact hfollows.used_live hdoes hsucceeds.1 huses
    · exact absurd hsucceeds (not_succeeds_of_refused hreply)
  · intro pre e post hrun hsucceeds
    obtain ⟨hfollows, ⟨result, hreply, hdoes⟩ | ⟨hreply, -⟩⟩ := follows_before hsafe hrun
    · exact hfollows.call_granted hreply hdoes hsucceeds.1
    · exact absurd hsucceeds (not_succeeds_of_refused hreply)
  · intro pre e post hrun sessionId hcloses hopened hnotClosed
    obtain ⟨hfollows, -⟩ := follows_before hsafe hrun
    obtain ⟨session, hfound⟩ := Option.isSome_iff_exists.mp
      ((hfollows.live sessionId).mpr ⟨hopened, hnotClosed⟩)
    -- the session was opened after a handshake
    obtain ⟨opening, hopening, hid⟩ := List.mem_filterMap.mp hopened
    obtain ⟨before, between, rfl⟩ := List.append_of_mem hopening
    obtain ⟨hanswered, hnot⟩ := answered_of_openedId hid
    have hshake := hearlier before opening (between ++ e :: post)
      (by rw [hrun, List.append_assoc, List.cons_append]) hanswered
    obtain ⟨earlier, hmem, hsucceeds⟩ := hshake.resolve_left hnot
    have hshaken := hfollows.handshaken.mpr ⟨earlier, List.mem_append_left _ hmem, hsucceeds⟩
    have hsucceeds := respond_closes hcloses hshaken hfound
    obtain ⟨-, he⟩ := before_event follows_step (follows_new host providerRef)
      hsafe hrun
    rwa [← he] at hsucceeds

end Protocol

section Respond

variable {Score : Type} {host : Host Score} {provider after : Provider} {line : Line}
  {request : Json} {envelope : Envelope}

theorem handle_of_envelope (henvelope : readEnvelope line.env request = .ok envelope) :
    handle host line.env request provider =
      dispatch host line.env envelope (host.encode request).length provider := by
  rw [handle, henvelope, check_ok_bind]

theorem respond_of_ok (hparse : host.parse line.text = some request)
    (henvelope : readEnvelope line.env request = .ok envelope) {result : Json}
    (h : dispatch host line.env envelope (host.encode request).length provider =
      (.ok result, after)) :
    respond host line provider = (.answered (requestId request) result, after) := by
  unfold respond
  rw [hparse]
  simp only [handle_of_envelope henvelope, h]

theorem respond_of_aborted (hparse : host.parse line.text = some request)
    (henvelope : readEnvelope line.env request = .ok envelope)
    (h : dispatch host line.env envelope (host.encode request).length provider =
      (.error .aborted, after)) :
    respond host line provider = (.aborted, after) := by
  unfold respond
  rw [hparse]
  simp only [handle_of_envelope henvelope, h]

theorem handshake_answers (hfirst : provider.handshaken = false) :
    ∃ result, handshake host (.mkObject []) provider =
      (.ok result, { provider with handshaken := true }) := by
  have hparams : exactObject (.mkObject []) [] [] "params" = .ok [] := rfl
  rw [handshake, hparams, check_ok_bind, get_bind_run, hfirst]
  exact ⟨_, rfl⟩

theorem open_aborts {env : Surroundings} {params : Json} (hshaken : provider.handshaken)
    (h : prepareSession host env provider.providerRef params = .error .aborted) :
    Provider.open host env params provider = (.error .aborted, provider) := by
  unfold Provider.open requireHandshake
  simp only [bind_assoc, get_bind_run, hshaken, if_true, pure_bind, h]
  rfl

/-- Nothing is written after the end of the process. -/
theorem serve_of_aborted {line' : Line} {lines : List Line} {id : String} {result : Json}
    {last : Provider} (hfirst : respond host line provider = (.answered id result, after))
    (hsecond : respond host line' after = (.aborted, last)) :
    ∃ response, serve host provider (line :: line' :: lines) = [response] := by
  obtain ⟨response, hresponse, -⟩ := responseId_answered id result
  refine ⟨response, ?_⟩
  rw [serve, hfirst]
  dsimp only
  rw [hresponse, serve, hsecond]
  rfl

end Respond

/-! ### A run that ends early -/

/-- The digest of everything under the stand-in hash. -/
def sampleDigest : Pipeline.Digest := Pipeline.hexDigest 1

/-- A text as long as a digest, with a character of two bytes at its second byte. -/
def cutDigest : String := "a" ++ String.ofList (List.replicate 31 'é') ++ "b"

def sampleIndexManifest : FastIndexManifest where
  schemaVersion := "livefire.rag.fast-index/2"
  componentSha256 := sampleDigest.val
  source := ⟨sampleDigest.val, sampleDigest.val⟩
  buildScope := .sample
  complete := false
  documents := ⟨"documents.parquet", 1, 1, sampleDigest.val, none⟩
  occurrences := ⟨"occurrences.parquet", 1, 1, sampleDigest.val, none⟩
  vectors := ⟨"vectors.f32", 1, 1, sampleDigest.val, 4, "f32le", vectorHeaderBytes,
    sampleDigest.val⟩
  lexical := ⟨"lexical.json", 1, 1, sampleDigest.val, none, "ascii_camel_lower_v1",
    0x3FF3333333333333, 0x3FE8000000000000⟩
  occurrenceLookup := ⟨"occurrences.sqlite3", 1, 1, sampleDigest.val, occurrenceLookupSchema⟩
  embeddingProfile := {
    id := "profile", version := "1", model := "model", dimensions := 4, normalization := "l2"
    sha256 := sampleDigest.val, queryInstruction := none, queryComposition := none
    vectorDerivation := none }
  pipelineProvenance := some ⟨cutDigest, sampleDigest.val, sampleDigest.val, sampleDigest.val⟩
  testOnly := false

def sampleRef (id : String) : Json := component id "1" sampleDigest.val

/-- The document with the text. -/
def readSample (documents : List Json) (text : String) : Option Json :=
  documents.find? fun value => String.ofList (Pipeline.jsonText value) = text

/-- Stand-ins for the hash, the reader of the documents of the run and the readers of files.
Everything has the one digest. -/
def sampleHost (documents : List Json) : Host Unit where
  prims := { sha256 := fun _ => sampleDigest, canonicalJsonBytes := fun _ => [],
             parseJson := fun _ => .error "not read" }
  encode value := Text.utf8 (String.ofList (Pipeline.jsonText value))
  parse := readSample documents
  readers := ⟨fun _ => none, fun _ => none, fun _ => none, fun _ => none, fun _ => none⟩
  scoring := ⟨(), fun _ _ => (), fun _ _ => (), fun _ => true, fun _ => false, fun _ => false,
    fun _ _ _ _ _ => (), fun _ => (), fun _ _ => .eq⟩
  scoreJson _ := .null
  unitNorm _ := false
  normalizePrefix _ := none
  readIndexManifest _ := some sampleIndexManifest
  readQueryVectorManifest _ := none
  readComponentRef _ := none
  normalizeLoopbackHttpEndpoint _ := none
  embedded _ := .null

/-- The identities do not depend on the documents. -/
def identities : Host Unit := sampleHost []

def samplePolicy : Json := similarityPolicyRef identities

def sampleContract (more : List (String × Json)) : Json := .mkObject
  ([("mode", .string "offline_closed"), ("network", .array []), ("secret_handles", .array []),
    ("vendor_services", .array [])] ++ more)

def sampleLimits : Json := .mkObject
  [("request_bytes", .number (.posInt 4096)), ("result_bytes", .number (.posInt 4096)),
    ("wall_time_ms", .number (.posInt 1000)), ("memory_bytes", .number (.posInt 4096)),
    ("max_candidates", .number (.posInt 10))]

/-- The binding lock. -/
def sampleLock : Json := .mkObject
  [("schema_version", .string "livefire.tool-binding-lock/1"),
    ("descriptor", similarToolRef identities), ("provider", sampleRef providerId),
    ("executable", .mkObject [("sha256", .string sampleDigest.val), ("bytes", .number (.posInt 0))]),
    ("input_schema", similarInputSchemaRef identities),
    ("output_schema", similarOutputSchemaRef identities), ("index", sampleRef "index"),
    ("index_format", formatRef identities),
    ("index_admission_receipt", sampleRef "receipt"),
    ("source_snapshots", .array [sampleRef "snapshot"]), ("retrieval_policy", samplePolicy),
    ("query_time_contract", sampleContract []), ("protocol", .string protocol),
    ("limits", sampleLimits)]

/-- The admission receipt. -/
def sampleReceipt : Json := .mkObject
  [("schema_version", .string "livefire.index-admission/1"), ("receipt_id", .string "receipt"),
    ("receipt_version", .string "1"), ("disposition", .string "admitted"),
    ("index_manifest_sha256", .string sampleDigest.val),
    ("authority_signature", .string "signature"),
    ("checks", .mkObject (admissionChecks.map fun name => (name, .bool true)))]

/-- The one object of the wrapper, an empty file. -/
def sampleObject : Json := .mkObject
  [("path", .string "pointers"), ("bytes", .number (.posInt 0)),
    ("sha256", .string sampleDigest.val)]

/-- The wrapper of the index. -/
def sampleWrapper : Json := .mkObject
  [("schema_version", .string "livefire.index/1"), ("index_id", .string "index"),
    ("index_version", .string "1"), ("format", formatRef identities),
    ("objects", .array [sampleObject]), ("source_pointer_table", sampleObject),
    ("source_bindings", .array [.mkObject [("source_snapshot", sampleRef "snapshot")]]),
    ("policies", .mkObject [("retrieval", samplePolicy), ("embedding", sampleRef "profile"),
      ("physical_index", sampleRef "physical"), ("mapping_pack", sampleRef "mapping")]),
    ("query_time_contract", sampleContract [("required_local_components", .array [])])]

/-- The manifest of the index, as far as it is compared. -/
def samplePhysical : Json := .mkObject
  [("schema_version", .string "livefire.rag.fast-index/2"),
    ("component_sha256", .string sampleDigest.val)]

def sampleMount (name role id : String) : Json := .mkObject
  [("logical_name", .string name), ("role", .string role), ("component", sampleRef id),
    ("access", .string "read_only"), ("process_path", .string name)]

def sampleRequest (id method : String) (params : Json) : Json := .mkObject
  [("protocol", .string protocol), ("id", .string id), ("method", .string method),
    ("params", params), ("context", .mkObject
      [("trace_id", .string "trace"), ("deadline_unix_ms", .number (.posInt 2))])]

def sampleHandshake : Json := sampleRequest "1" "handshake" (.mkObject [])

/-- A request that agrees with everything that is mounted. -/
def sampleOpen : Json := sampleRequest "2" "open" <| .mkObject
  [("provider", sampleRef providerId), ("tools", .array [similarToolRef identities]),
    ("indexes", .array [sampleRef "index"]), ("source_snapshots", .array [sampleRef "snapshot"]),
    ("binding_lock_sha256", .string sampleDigest.val), ("query_time_contract", sampleContract []),
    ("limits", sampleLimits),
    ("mounts", .array [sampleMount "embedding-profile" "model" "profile",
      sampleMount "evidence-index" "index" "index",
      sampleMount "index-admission-receipt" "policy" "receipt",
      sampleMount "tool-binding-lock" "policy" "lock"])]

def sampleDocuments : List Json :=
  [sampleHandshake, sampleOpen, sampleLock, sampleReceipt, sampleWrapper, samplePhysical]

def sampleFile (value : Json) : Mount :=
  ⟨false, some (Text.utf8 (String.ofList (Pipeline.jsonText value))), fun _ => none, fun _ => false⟩

/-- The directory of the index. -/
def sampleDirectory : Mount where
  isDirectory := true
  content := none
  contained _ := true
  files name :=
    if name = "sdk-index-manifest.json" then (sampleFile sampleWrapper).content
    else if name = "index.json" then (sampleFile samplePhysical).content
    else if name = "pointers" then some [] else none

def sampleSurroundings : Surroundings where
  handledAt := 1
  calledAt := 1
  answeredAt := 1
  elapsedNanos := 0
  mounts path :=
    if path = "evidence-index" then sampleDirectory
    else if path = "tool-binding-lock" then sampleFile sampleLock
    else sampleFile sampleReceipt
  runningExecutable := some []
  embed _ _ _ _ := .failed

def sampleLine (request : Json) : Line :=
  ⟨String.ofList (Pipeline.jsonText request), sampleSurroundings⟩

def sampleProvider : Provider := Provider.new (sampleRef providerId)

/-- The host of the run. -/
def runHost : Host Unit := sampleHost sampleDocuments

/-- Documents of different texts are read back. -/
theorem readSample_of_mem {documents : List Json}
    (hnodup : (documents.map Pipeline.jsonText).Nodup) {value : Json} (h : value ∈ documents) :
    readSample documents (String.ofList (Pipeline.jsonText value)) = some value := by
  unfold readSample
  induction documents with
  | nil => cases h
  | cons first documents ih =>
    rw [List.map_cons, List.nodup_cons] at hnodup
    obtain rfl | hmem := List.mem_cons.mp h
    · exact List.find?_cons_of_pos (decide_eq_true rfl)
    · rw [List.find?_cons_of_neg, ih hnodup.2 hmem]
      intro heq
      have htext := String.ofList_injective (of_decide_eq_true heq)
      exact hnodup.1 (htext ▸ List.mem_map_of_mem hmem)

theorem nodup_sampleTexts : (sampleDocuments.map Pipeline.jsonText).Nodup := by decide +kernel

theorem sampleHost_parse (documents : List Json) (text : String) :
    (sampleHost documents).parse text = readSample documents text := rfl

theorem readJsonMount_of_read {mount : Mount} {filename : String} {value : Json}
    (h : mount.read filename = (sampleFile value).content) (hmem : value ∈ sampleDocuments) :
    readJsonMount runHost mount filename = .ok value := by
  rw [readJsonMount, readMountBytes, h, sampleFile, orThrow, ok_bind, Text.fromUtf8_utf8,
    Option.bind_some, runHost,
    sampleHost_parse, readSample_of_mem nodup_sampleTexts hmem]
  rfl

/-- What is read of the request. -/
def sampleOpenRequest : OpenRequest where
  params := ((sampleOpen.member "params").asObject).getD []
  grantedTool := .similar
  indexRef := sampleRef "index"
  sourceSnapshot := sampleRef "snapshot"
  bindingLockSha256 := sampleDigest.val
  embeddingEndpoint := none
  indexMount := (sampleMount "evidence-index" "index" "index").asObject.getD []
  lockMount := (sampleMount "tool-binding-lock" "policy" "lock").asObject.getD []
  receiptMount := (sampleMount "index-admission-receipt" "policy" "receipt").asObject.getD []
  embeddingMount := (sampleMount "embedding-profile" "model" "profile").asObject.getD []
  queryVectorMount := none

/-- The open passes every check up to the index, where the digest text ends the process. -/
theorem prepareSession_sampleOpen :
    prepareSession runHost sampleSurroundings (sampleRef providerId) (sampleOpen.member "params") =
      .error .aborted := by
  have hrequest : readOpenRequest runHost (sampleRef providerId) (sampleOpen.member "params") =
      .ok sampleOpenRequest := by decide +kernel
  have hlock : readLock runHost sampleSurroundings (sampleRef providerId) sampleOpenRequest =
      .ok sampleLock := by
    have hmount : mountAt sampleSurroundings sampleOpenRequest.lockMount "binding mount" =
        .ok (sampleFile sampleLock) := by rfl
    have hread : readJsonMount runHost (sampleFile sampleLock) "tool-binding-lock.json" =
        .ok sampleLock := readJsonMount_of_read rfl (by simp [sampleDocuments])
    rw [readLock, hmount, ok_bind, hread, ok_bind]
    decide +kernel
  have hexecutable : checkExecutable runHost sampleSurroundings sampleLock = .ok () := by
    decide +kernel
  have hreceipt : checkReceipt runHost sampleSurroundings sampleOpenRequest sampleLock =
      .ok () := by
    have hmount : mountAt sampleSurroundings sampleOpenRequest.receiptMount "receipt mount" =
        .ok (sampleFile sampleReceipt) := by rfl
    have hread : readJsonMount runHost (sampleFile sampleReceipt) "index-admission-receipt.json" =
        .ok sampleReceipt := readJsonMount_of_read rfl (by simp [sampleDocuments])
    rw [checkReceipt, hmount, ok_bind, hread, ok_bind]
    decide +kernel
  have hindex : bindIndex runHost sampleSurroundings sampleOpenRequest sampleLock =
      .error .aborted := by
    have hmount : mountAt sampleSurroundings sampleOpenRequest.indexMount "index mount" =
        .ok sampleDirectory := by rfl
    have hwrapper : readJsonMount runHost sampleDirectory "sdk-index-manifest.json" =
        .ok sampleWrapper := readJsonMount_of_read (by simp [Mount.read, sampleDirectory])
      (by simp [sampleDocuments])
    have hphysical : readJsonMount runHost sampleDirectory "index.json" = .ok samplePhysical :=
      readJsonMount_of_read (by simp [Mount.read, sampleDirectory]) (by simp [sampleDocuments])
    have hverify : verifySdkIndexWrapper runHost sampleDirectory sampleOpenRequest.indexRef =
        .ok sampleWrapper := by
      rw [verifySdkIndexWrapper, hwrapper, ok_bind]
      decide +kernel
    rw [bindIndex, hmount, ok_bind, hverify, ok_bind, hphysical]
    decide +kernel
  rw [prepareSession, hrequest, ok_bind, hlock, ok_bind, hexecutable, ok_bind, hreceipt, ok_bind,
    hindex]
  rfl

/-- Both requests of the run are well formed. -/
theorem readEnvelope_sample :
    readEnvelope sampleSurroundings sampleHandshake = .ok ⟨"handshake", .mkObject [], 2⟩ ∧
      readEnvelope sampleSurroundings sampleOpen =
        .ok ⟨"open", sampleOpen.member "params", 2⟩ := by
  constructor <;> decide +kernel

theorem parse_sampleLine {request : Json} (h : request ∈ sampleDocuments) :
    runHost.parse (sampleLine request).text = some request := by
  rw [runHost, sampleHost_parse, sampleLine, readSample_of_mem nodup_sampleTexts h]

theorem respond_sampleHandshake :
    ∃ id result, respond runHost (sampleLine sampleHandshake) sampleProvider =
      (.answered id result, { sampleProvider with handshaken := true }) := by
  obtain ⟨result, hresult⟩ := @handshake_answers _ runHost sampleProvider rfl
  exact ⟨_, result, respond_of_ok (parse_sampleLine (by simp [sampleDocuments]))
    readEnvelope_sample.1 hresult⟩

theorem respond_sampleOpen :
    respond runHost (sampleLine sampleOpen) { sampleProvider with handshaken := true } =
      (.aborted, { sampleProvider with handshaken := true }) := by
  exact respond_of_aborted (parse_sampleLine (by simp [sampleDocuments])) readEnvelope_sample.2
    (open_aborts rfl prepareSession_sampleOpen)

/-- The digest text ends the process: the open is not answered. -/
theorem cut_digest_unanswered :
    ¬ (SessionProtocol runHost (events (respond runHost) sampleProvider
          [sampleLine sampleHandshake, sampleLine sampleOpen]) ∧
        (serve runHost sampleProvider [sampleLine sampleHandshake, sampleLine sampleOpen]).map
          responseId =
        [sampleLine sampleHandshake, sampleLine sampleOpen].map fun line =>
          some (line.id runHost)) := by
  rintro ⟨-, h⟩
  obtain ⟨id, result, hfirst⟩ := respond_sampleHandshake
  obtain ⟨response, hserve⟩ := serve_of_aborted hfirst respond_sampleOpen
  rw [hserve] at h
  exact List.cons_ne_nil _ _ (List.cons.inj h).2.symm

theorem sampleHandshake_harmless (provider : Provider) :
    ¬ Hazardous runHost (sampleLine sampleHandshake) provider := by
  rintro ⟨request, envelope, hparse, hread, hmethod⟩
  rw [parse_sampleLine (by simp [sampleDocuments]), Option.some.injEq] at hparse
  subst hparse
  obtain rfl := Except.ok.inj (readEnvelope_sample.1.symm.trans hread)
  obtain ⟨hmethod, -⟩ | ⟨hmethod, -⟩ := hmethod
  · exact absurd hmethod (by decide)
  · exact absurd hmethod (by decide)

/-- A handshake that is repeated. -/
theorem repeated_handshake_protocol :
    SessionProtocol runHost (events (respond runHost) (Provider.new (sampleRef providerId))
        [sampleLine sampleHandshake, sampleLine sampleHandshake]) ∧
      (serve runHost (Provider.new (sampleRef providerId))
          [sampleLine sampleHandshake, sampleLine sampleHandshake]).map responseId =
        [sampleLine sampleHandshake, sampleLine sampleHandshake].map fun line =>
          some (line.id runHost) := by
  refine serve_protocol runHost (sampleRef providerId) _ fun e he => ?_
  obtain rfl | he := List.mem_cons.mp he
  · exact sampleHandshake_harmless _
  · rw [List.mem_singleton.mp he]
    exact sampleHandshake_harmless _

end LivefireRag.ToolProvider
