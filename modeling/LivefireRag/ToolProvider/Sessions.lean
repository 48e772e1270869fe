import LivefireRag.Lib.Runs
import LivefireRag.ToolProvider.Calling

/-!
# The session protocol

The provider is a state machine over the handshake, the counter of sessions and the open
sessions; `serve` gives it one request line after the other. Its methods run in `Handler`,
where a change that was made before an error stays made, as in the source.

`step_cases` says what one line does. `Follows` is what it leaves behind: how the state
depends on the past. `serve_protocol`: along every run in which no request is `Hazardous`
the session protocol holds (`SessionProtocol`) and every line is answered by one line.
-/

namespace LivefireRag.ToolProvider

open Machine Fallible Index Runs

/-! ### The state machine -/

structure Provider where
  handshaken : Bool
  nextSession : U64
  sessions : SortedMap String Session
  providerRef : Json

/-- The methods of the provider. -/
abbrev Handler := ExceptT Fault (StateM Provider)

/-- A check that does not touch the provider. -/
def check {α : Type} (result : Result α) : Handler α := ExceptT.mk (pure result)

section Machine

variable {Score : Type} (host : Host Score)

def Provider.new (providerRef : Json) : Provider := ⟨false, 0, SortedMap.empty, providerRef⟩

def requireHandshake : Handler Unit := do
  let self ← get
  if self.handshaken then pure ()
  else throw (.new "protocol_error" "handshake is required before session methods")

def handshake (params : Json) : Handler Json := do
  let _ ← check (exactObject params [] [] "params")
  let self ← get
  if self.handshaken then throw (.new "protocol_error" "handshake has already completed")
  else do
    modify fun provider => { provider with handshaken := true }
    return .mkObject [("response_kind", .string "handshake"), ("provider", self.providerRef),
      ("protocol", .string protocol),
      ("tools", .array [searchToolRef host, similarToolRef host]),
      ("accepted_index_formats", .array [formatRef host, formatRefV3 host])]

def sessionName (n : U64) : String := "fast-evidence-" ++ toString (n : ℕ)

def Provider.open (env : Surroundings) (params : Json) : Handler Json := do
  requireHandshake
  let self ← get
  let session ← check (prepareSession host env self.providerRef params)
  -- the counter has 64 bits
  modify fun provider => { provider with nextSession := provider.nextSession + 1 }
  let self ← get
  let sessionId := sessionName self.nextSession
  modify fun provider => { provider with sessions := provider.sessions.insert sessionId session }
  return .mkObject [("response_kind", .string "open"), ("session_id", .string sessionId),
    ("binding_lock_sha256", .string session.bindingLockSha256)]

/-- An open session by its id. -/
def lookupSession (sessionId : String) : Handler Session := do
  let self ← get
  check (orThrow (self.sessions.get? sessionId) (.new "not_found" "session was not found"))

def call (env : Surroundings) (params : Json) (deadline : U64) (encodedRequestBytes : ℕ) :
    Handler Json := do
  requireHandshake
  let params ← check (exactObject params ["session_id", "tool", "arguments"]
    ["session_id", "tool", "arguments"] "params")
  let sessionId ← check (string params "session_id" "params")
  let session ← lookupSession sessionId
  check (callSession host env session params deadline encodedRequestBytes)

def sessionOnly (params : Json) : Result String := do
  let params ← exactObject params ["session_id"] ["session_id"] "params"
  string params "session_id" "params"

def health (params : Json) : Handler Json := do
  requireHandshake
  let sessionId ← check (sessionOnly params)
  let session ← lookupSession sessionId
  return .mkObject [("response_kind", .string "health"), ("status", .string "ready"),
    ("binding_lock_sha256", .string session.bindingLockSha256)]

def close (params : Json) : Handler Json := do
  requireHandshake
  let sessionId ← check (sessionOnly params)
  let self ← get
  -- the session is removed before it is known whether there was one
  modify fun provider => { provider with sessions := provider.sessions.erase sessionId }
  if (self.sessions.get? sessionId).isNone then
    throw (.new "not_found" "session was not found")
  else return .mkObject [("response_kind", .string "close"), ("closed", .bool true)]

/-- What every request carries. -/
structure Envelope where
  method : String
  params : Json
  deadline : U64
  deriving DecidableEq

def requestFields : List String := ["protocol", "id", "method", "params", "context"]

def readEnvelope (env : Surroundings) (request : Json) : Result Envelope := do
  let members ← exactObject request requestFields requestFields "request"
  let name ← string members "protocol" "request"
  throwIf (name ≠ protocol) (.new "protocol_error" "unsupported protocol")
  let context ← exactObject ((Json.field? members "context").getD .null)
    ["trace_id", "deadline_unix_ms"] ["trace_id", "deadline_unix_ms"] "context"
  let traceId ← string context "trace_id" "context"
  throwIf (traceId = "") (.new "invalid_request" "context.trace_id must be non-empty")
  let deadline ← positiveU64 context "deadline_unix_ms" "context"
  throwIf (deadline ≤ env.handledAt) (.new "deadline_exceeded" "request deadline has expired")
  let method ← string members "method" "request"
  return ⟨method, (Json.field? members "params").getD .null, deadline⟩

def dispatch (env : Surroundings) (envelope : Envelope) (encodedRequestBytes : ℕ) :
    Handler Json :=
  match envelope.method with
  | "handshake" => handshake host envelope.params
  | "open" => Provider.open host env envelope.params
  | "call" => call host env envelope.params envelope.deadline encodedRequestBytes
  | "health" => health envelope.params
  | "close" => close envelope.params
  | _ => throw (.new "invalid_request" "unsupported provider method")

def handle (env : Surroundings) (request : Json) : Handler Json := do
  let envelope ← check (readEnvelope env request)
  dispatch host env envelope (host.encode request).length

/-! ### Serving lines -/

/-- A line of the input and what the provider finds while it handles it. -/
structure Line where
  text : String
  env : Surroundings

/-- How a line ends. -/
inductive Reply where
  | answered (id : String) (result : Json)
  | refused (id : String) (error : ProviderError)
  | aborted

def requestId (request : Json) : String := ((request.get? "id").bind Json.asStr).getD "unknown"

/-- One line. -/
def respond (line : Line) (provider : Provider) : Reply × Provider :=
  match host.parse line.text with
  | none => (.refused "unknown" ⟨"invalid_request", "request is not valid JSON", false⟩, provider)
  | some request =>
    match handle host line.env request provider with
    | (.ok result, after) => (.answered (requestId request) result, after)
    | (.error (.refused error), after) => (.refused (requestId request) error, after)
    | (.error .aborted, after) => (.aborted, after)

/-- The line that is written, if the process goes on. -/
def Reply.response : Reply → Option Json
  | .answered id result => some (.mkObject [("protocol", .string protocol), ("id", .string id),
      ("result", result)])
  | .refused id error => some (.mkObject [("protocol", .string protocol), ("id", .string id),
      ("error", .mkObject [("code", .string error.code), ("message", .string error.message),
        ("retryable", .bool error.retryable)])])
  | .aborted => none

/-- The lines that are written. Nothing is written once the process has ended. -/
def serve (provider : Provider) : List Line → List Json
  | [] => []
  | line :: lines =>
    match (respond host line provider).1.response with
    | none => []
    | some response => response :: serve (respond host line provider).2 lines

/-! ### What a request does -/

section Run

variable {α β : Type} (provider : Provider)

@[simp] theorem pure_run (a : α) : (pure a : Handler α) provider = (.ok a, provider) := rfl

@[simp] theorem throw_run (fault : Fault) :
    (throw fault : Handler α) provider = (.error fault, provider) := rfl

@[simp] theorem get_bind_run (f : Provider → Handler β) :
    (get >>= f : Handler β) provider = f provider provider := rfl

@[simp] theorem modify_bind_run (g : Provider → Provider) (f : Unit → Handler β) :
    (modify g >>= f : Handler β) provider = f () (g provider) := rfl

theorem check_ok_bind (a : α) (f : α → Handler β) : (check (.ok a) >>= f) = f a := rfl

/-- An answer that is an error, and nothing has changed. -/
def Refused (provider : Provider) (reply : Result α) (after : Provider) : Prop :=
  (∃ error, reply = .error (.refused error)) ∧ after = provider

variable {provider} {after : Provider} {reply : Result β}

theorem refused_of_throw {code message : String}
    (h : (throw (.new code message) : Handler β) provider = (reply, after)) :
    Refused provider reply after := by
  obtain ⟨rfl, rfl⟩ := Prod.mk.inj h
  exact ⟨⟨_, rfl⟩, rfl⟩

/-- A check leaves the provider as it is. -/
theorem check_run {result : Result β} (havoids : Avoids .aborted result)
    (h : check result provider = (reply, after)) :
    ((∃ b, result = .ok b) ∧ reply = result ∧ after = provider) ∨
      Refused provider reply after := by
  obtain ⟨rfl, rfl⟩ : result = reply ∧ provider = after := Prod.mk.inj h
  cases result with
  | ok b => exact .inl ⟨⟨b, rfl⟩, rfl, rfl⟩
  | error fault =>
    cases fault with
    | refused error => exact .inr ⟨⟨error, rfl⟩, rfl⟩
    | aborted => exact absurd rfl havoids

theorem check_bind_run {result : Result α} {f : α → Handler β} (havoids : Avoids .aborted result)
    (h : (check result >>= f) provider = (reply, after)) :
    (∃ a, result = .ok a ∧ f a provider = (reply, after)) ∨ Refused provider reply after := by
  cases result with
  | ok a => exact .inl ⟨a, rfl, h⟩
  | error fault =>
    cases fault with
    | refused error =>
      obtain ⟨rfl, rfl⟩ := Prod.mk.inj h
      exact .inr ⟨⟨error, rfl⟩, rfl⟩
    | aborted => exact absurd rfl havoids

theorem requireHandshake_bind_run {f : Unit → Handler β}
    (h : (requireHandshake >>= f) provider = (reply, after)) :
    (provider.handshaken ∧ f () provider = (reply, after)) ∨ Refused provider reply after := by
  cases hshaken : provider.handshaken with
  | true =>
    refine .inl ⟨rfl, ?_⟩
    simp only [requireHandshake, bind_assoc, get_bind_run, hshaken] at h
    exact h
  | false =>
    simp only [requireHandshake, bind_assoc, get_bind_run, hshaken] at h
    exact .inr (refused_of_throw h)

theorem lookupSession_bind_run {sessionId : String} {f : Session → Handler β}
    (h : (lookupSession sessionId >>= f) provider = (reply, after)) :
    (∃ session, provider.sessions.get? sessionId = some session ∧
      f session provider = (reply, after)) ∨ Refused provider reply after := by
  unfold lookupSession at h
  rw [bind_assoc, get_bind_run] at h
  obtain ⟨session, hfound, h⟩ | h := check_bind_run (avoids_orThrow new_ne_aborted) h
  · exact .inl ⟨session, orThrow_eq_ok.mp hfound, h⟩
  · exact .inr h

end Run

/-! ### What ends the process -/

/-- An open that takes the last name, or that mounts an index whose manifest holds a
digest text cut inside a character. -/
def OpenHazard (env : Surroundings) (params : Json) (provider : Provider) : Prop :=
  (provider.nextSession : ℕ) + 1 = 2 ^ 64 ∨
    ∃ request, readOpenRequest host provider.providerRef params = .ok request ∧
      ¬ request.MountsDecodable host env

/-- A call that the mounted index answers with an occurrence of another snapshot than
that of the session. -/
def CallHazard (env : Surroundings) (params : Json) (deadline : U64) (encodedRequestBytes : ℕ)
    (provider : Provider) : Prop :=
  ∃ members sessionId session found wallMs, params = .object members ∧
    (params.get? "session_id").bind Json.asStr = some sessionId ∧
    provider.sessions.get? sessionId = some session ∧
    callHits host env session members deadline encodedRequestBytes = .ok (found, wallMs) ∧
    ¬ ∀ hit ∈ found.hits, ∀ occurrence ∈ hit.occurrences, session.Binds occurrence

def Hazardous (line : Line) (provider : Provider) : Prop :=
  ∃ request envelope, host.parse line.text = some request ∧
    readEnvelope line.env request = .ok envelope ∧
    (envelope.method = "open" ∧ OpenHazard host line.env envelope.params provider ∨
      envelope.method = "call" ∧ CallHazard host line.env envelope.params envelope.deadline
        (host.encode request).length provider)

/-! ### What a line does -/

def Line.method (line : Line) : Option String :=
  (host.parse line.text).bind fun request => (request.get? "method").bind Json.asStr

def Line.params (line : Line) : Json :=
  ((host.parse line.text).map fun request => request.member "params").getD .null

def Line.sessionId (line : Line) : Option String :=
  ((line.params host).get? "session_id").bind Json.asStr

/-- The id a response carries. -/
def Line.id (line : Line) : String := ((host.parse line.text).map requestId).getD "unknown"

/-- What an answered line does to the provider. -/
inductive Does (line : Line) (provider : Provider) : Json → Provider → Prop where
  | handshake {result : Json} (method : line.method host = some "handshake")
      (first : provider.handshaken = false) :
      Does line provider result { provider with handshaken := true }
  | opened {result : Json} {session : Session} (method : line.method host = some "open")
      (handshaken : provider.handshaken) (granted : GrantedBy host (line.params host) session)
      (room : (provider.nextSession : ℕ) + 1 < 2 ^ 64)
      (issued : (result.get? "session_id").bind Json.asStr =
        some (sessionName (provider.nextSession + 1))) :
      Does line provider result { provider with
        nextSession := provider.nextSession + 1
        sessions := provider.sessions.insert (sessionName (provider.nextSession + 1)) session }
  | called {result : Json} {session : Session} {sessionId : String} {members : Members}
      (method : line.method host = some "call") (handshaken : provider.handshaken)
      (named : line.sessionId host = some sessionId)
      (found : provider.sessions.get? sessionId = some session)
      (hmembers : line.params host = .object members)
      (within : WithinGrant host session members result) :
      Does line provider result provider
  | healthy {result : Json} {session : Session} {sessionId : String}
      (method : line.method host = some "health") (handshaken : provider.handshaken)
      (named : line.sessionId host = some sessionId)
      (found : provider.sessions.get? sessionId = some session) :
      Does line provider result provider
  | closed {result : Json} {session : Session} {sessionId : String}
      (method : line.method host = some "close") (handshaken : provider.handshaken)
      (named : line.sessionId host = some sessionId)
      (found : provider.sessions.get? sessionId = some session) :
      Does line provider result
        { provider with sessions := provider.sessions.erase sessionId }

/-! ### What each method does -/

variable {host} {env : Surroundings} {params : Json} {provider after : Provider}
  {reply : Result Json}

theorem handshake_spec (h : handshake host params provider = (reply, after)) :
    (∃ result, reply = .ok result ∧ provider.handshaken = false ∧
      after = { provider with handshaken := true }) ∨ Refused provider reply after := by
  obtain ⟨-, -, h⟩ | h := check_bind_run (exactObject_avoids_aborted _ _ _ _) h
  · rw [get_bind_run] at h
    split at h
    · exact .inr (refused_of_throw h)
    · next hfirst =>
      obtain ⟨rfl, rfl⟩ := Prod.mk.inj h
      exact .inl ⟨_, rfl, by simpa using hfirst, rfl⟩
  · exact .inr h

theorem open_spec (hsafe : ¬ OpenHazard host env params provider)
    (h : Provider.open host env params provider = (reply, after)) :
    (∃ result session, reply = .ok result ∧ provider.handshaken ∧
      prepareSession host env provider.providerRef params = .ok session ∧
      (result.get? "session_id").bind Json.asStr =
        some (sessionName (provider.nextSession + 1)) ∧
      after = { provider with
        nextSession := provider.nextSession + 1
        sessions := provider.sessions.insert (sessionName (provider.nextSession + 1)) session }) ∨
    Refused provider reply after := by
  have hprepare : Avoids .aborted (prepareSession host env provider.providerRef params) :=
    prepareSession_avoids_aborted host fun request hrequest =>
      not_not.mp fun hnot => hsafe (.inr ⟨request, hrequest, hnot⟩)
  obtain ⟨hshaken, h⟩ | h := requireHandshake_bind_run h
  · rw [get_bind_run] at h
    obtain ⟨session, hsession, h⟩ | h := check_bind_run hprepare h
    · obtain ⟨rfl, rfl⟩ := Prod.mk.inj h
      refine .inl ⟨_, session, rfl, hshaken, hsession, ?_, rfl⟩
      rw [Json.get?_mkObject (by simp) (.tail _ (.head _))]
      rfl
    · exact .inr h
  · exact .inr h

theorem call_spec {deadline : U64} {bytes : ℕ}
    (hsafe : ¬ CallHazard host env params deadline bytes provider)
    (h : call host env params deadline bytes provider = (reply, after)) :
    (∃ result members sessionId session, reply = .ok result ∧ params = .object members ∧
      provider.handshaken ∧ (params.get? "session_id").bind Json.asStr = some sessionId ∧
      provider.sessions.get? sessionId = some session ∧
      callSession host env session members deadline bytes = .ok result ∧ after = provider) ∨
    Refused provider reply after := by
  obtain ⟨hshaken, h⟩ | h := requireHandshake_bind_run h
  · obtain ⟨members, hmembers, hrest⟩ | h := check_bind_run (exactObject_avoids_aborted _ _ _ _) h
    · obtain ⟨rfl, -⟩ := exactObject_eq_ok hmembers
      obtain ⟨sessionId, hname, h⟩ | h := check_bind_run (string_avoids_aborted _ _ _) hrest
      · obtain ⟨session, hfound, h⟩ | h := lookupSession_bind_run h
        · have hcall : Avoids .aborted (callSession host env session members deadline bytes) := by
            intro haborted
            obtain ⟨found, wallMs, hhits, hnot⟩ := (callSession_eq_aborted_iff host).mp haborted
            exact hsafe ⟨members, sessionId, session, found, wallMs, rfl, orThrow_eq_ok.mp hname,
              hfound, hhits, hnot⟩
          obtain ⟨⟨result, hresult⟩, rfl, rfl⟩ | h := check_run hcall h
          · exact .inl ⟨result, members, sessionId, session, hresult, rfl, hshaken,
              orThrow_eq_ok.mp hname, hfound, hresult, rfl⟩
          · exact .inr h
        · exact .inr h
      · exact .inr h
    · exact .inr h
  · exact .inr h

theorem sessionOnly_eq_ok {sessionId : String} (h : sessionOnly params = .ok sessionId) :
    (params.get? "session_id").bind Json.asStr = some sessionId := by
  obtain ⟨members, hmembers, hname⟩ := bind_eq_ok.mp h
  obtain ⟨rfl, -⟩ := exactObject_eq_ok hmembers
  exact orThrow_eq_ok.mp hname

theorem sessionOnly_avoids_aborted : Avoids .aborted (sessionOnly params) :=
  avoids_bind (exactObject_avoids_aborted _ _ _ _) fun _ _ => string_avoids_aborted _ _ _

theorem health_spec (h : health params provider = (reply, after)) :
    (∃ result sessionId session, reply = .ok result ∧ provider.handshaken ∧
      (params.get? "session_id").bind Json.asStr = some sessionId ∧
      provider.sessions.get? sessionId = some session ∧ after = provider) ∨
    Refused provider reply after := by
  obtain ⟨hshaken, h⟩ | h := requireHandshake_bind_run h
  · obtain ⟨sessionId, hname, h⟩ | h := check_bind_run sessionOnly_avoids_aborted h
    · obtain ⟨session, hfound, h⟩ | h := lookupSession_bind_run h
      · obtain ⟨rfl, rfl⟩ := Prod.mk.inj h
        exact .inl ⟨_, sessionId, session, rfl, hshaken, sessionOnly_eq_ok hname, hfound, rfl⟩
      · exact .inr h
    · exact .inr h
  · exact .inr h

theorem erase_of_get?_eq_none {sessions : SortedMap String Session} {sessionId : String}
    (h : sessions.get? sessionId = none) : sessions.erase sessionId = sessions := by
  refine SortedMap.ext_get? fun k => ?_
  rw [SortedMap.get?_erase]
  split_ifs with hk
  · rw [hk, h]
  · rfl

/-- The session is removed before the answer, but only where there is one. -/
theorem close_spec (h : close params provider = (reply, after)) :
    (∃ result sessionId session, reply = .ok result ∧ provider.handshaken ∧
      (params.get? "session_id").bind Json.asStr = some sessionId ∧
      provider.sessions.get? sessionId = some session ∧
      after = { provider with sessions := provider.sessions.erase sessionId }) ∨
    Refused provider reply after := by
  obtain ⟨hshaken, h⟩ | h := requireHandshake_bind_run h
  · obtain ⟨sessionId, hname, h⟩ | h := check_bind_run sessionOnly_avoids_aborted h
    · rw [get_bind_run, modify_bind_run] at h
      cases hfound : provider.sessions.get? sessionId with
      | none =>
        rw [hfound] at h
        obtain ⟨herror, rfl⟩ := refused_of_throw h
        rw [erase_of_get?_eq_none hfound]
        exact .inr ⟨herror, rfl⟩
      | some session =>
        rw [hfound] at h
        obtain ⟨rfl, rfl⟩ := Prod.mk.inj h
        exact .inl ⟨_, sessionId, session, rfl, hshaken, sessionOnly_eq_ok hname, hfound, rfl⟩
    · exact .inr h
  · exact .inr h

/-! ### The step lemma -/

theorem readEnvelope_eq_ok {request : Json} {envelope : Envelope}
    (h : readEnvelope env request = .ok envelope) :
    (request.get? "method").bind Json.asStr = some envelope.method ∧
      request.member "params" = envelope.params := by
  simp only [readEnvelope, bind_eq_ok, exists_unit, throwIf_eq_ok, pure_eq_ok] at h
  obtain ⟨members, hmembers, _, -, -, _, -, _, -, -, _, -, -, method, hmethod, rfl⟩ := h
  obtain ⟨rfl, -⟩ := exactObject_eq_ok hmembers
  exact ⟨orThrow_eq_ok.mp hmethod, rfl⟩

theorem readEnvelope_avoids_aborted {request : Json} :
    Avoids .aborted (readEnvelope env request) := by
  unfold readEnvelope
  refine avoids_bind (exactObject_avoids_aborted _ _ _ _) fun members _ => ?_
  refine avoids_bind (string_avoids_aborted _ _ _) fun name _ => ?_
  refine avoids_bind (avoids_throwIf new_ne_aborted) fun _ _ => ?_
  refine avoids_bind (exactObject_avoids_aborted _ _ _ _) fun context _ => ?_
  refine avoids_bind (string_avoids_aborted _ _ _) fun traceId _ => ?_
  refine avoids_bind (avoids_throwIf new_ne_aborted) fun _ _ => ?_
  refine avoids_bind (positiveU64_avoids_aborted _ _ _) fun deadline _ => ?_
  refine avoids_bind (avoids_throwIf new_ne_aborted) fun _ _ => ?_
  exact avoids_bind (string_avoids_aborted _ _ _) fun _ _ => avoids_pure _

theorem dispatch_cases (envelope : Envelope) (bytes : ℕ) :
    (envelope.method = "handshake" ∧
      dispatch host env envelope bytes = handshake host envelope.params) ∨
    (envelope.method = "open" ∧
      dispatch host env envelope bytes = Provider.open host env envelope.params) ∨
    (envelope.method = "call" ∧
      dispatch host env envelope bytes = call host env envelope.params envelope.deadline bytes) ∨
    (envelope.method = "health" ∧ dispatch host env envelope bytes = health envelope.params) ∨
    (envelope.method = "close" ∧ dispatch host env envelope bytes = close envelope.params) ∨
    dispatch host env envelope bytes =
      throw (.new "invalid_request" "unsupported provider method") := by
  unfold dispatch
  split <;> simp [*]

/-- A line that holds a request is handled or refused. -/
theorem handle_spec {line : Line} {request : Json} (hrequest : host.parse line.text = some request)
    (hsafe : ¬ Hazardous host line provider)
    (h : handle host line.env request provider = (reply, after)) :
    (∃ result, reply = .ok result ∧ Does host line provider result after) ∨
      Refused provider reply after := by
  obtain ⟨envelope, henvelope, h⟩ | h := check_bind_run readEnvelope_avoids_aborted h
  swap
  · exact .inr h
  obtain ⟨hmethod, hparams⟩ := readEnvelope_eq_ok henvelope
  replace hparams : line.params host = envelope.params := by
    rw [Line.params, hrequest, Option.map_some, Option.getD_some, hparams]
  have hnamed : line.method host = some envelope.method := by
    rw [Line.method, hrequest, Option.bind_some, hmethod]
  have hid : (envelope.params.get? "session_id").bind Json.asStr = line.sessionId host := by
    rw [Line.sessionId, hparams]
  obtain ⟨heq, hd⟩ | ⟨heq, hd⟩ | ⟨heq, hd⟩ | ⟨heq, hd⟩ | ⟨heq, hd⟩ | hd :=
    @dispatch_cases _ host line.env envelope (host.encode request).length
  all_goals rw [hd] at h
  · obtain ⟨result, rfl, hfirst, rfl⟩ | h := handshake_spec h
    · exact .inl ⟨result, rfl, .handshake (hnamed.trans (congrArg some heq)) hfirst⟩
    · exact .inr h
  · have hopen : ¬ OpenHazard host line.env envelope.params provider := fun hhazard =>
      hsafe ⟨request, envelope, hrequest, henvelope, .inl ⟨heq, hhazard⟩⟩
    obtain ⟨result, session, rfl, hshaken, hsession, hissued, rfl⟩ | h := open_spec hopen h
    · refine .inl ⟨result, rfl, .opened (hnamed.trans (congrArg some heq)) hshaken ?_ ?_ hissued⟩
      · rw [hparams]
        exact prepareSession_spec host hsession
      · exact lt_of_le_of_ne provider.nextSession.isLt fun hlast => hopen (.inl hlast)
    · exact .inr h
  · have hcall : ¬ CallHazard host line.env envelope.params envelope.deadline
        (host.encode request).length provider := fun hhazard =>
      hsafe ⟨request, envelope, hrequest, henvelope, .inr ⟨heq, hhazard⟩⟩
    obtain ⟨result, members, sessionId, session, rfl, hmembers, hshaken, hname, hfound, hresult,
      rfl⟩ | h := call_spec hcall h
    · exact .inl ⟨result, rfl, .called (hnamed.trans (congrArg some heq)) hshaken
        (hid.symm.trans hname) hfound (hparams.trans hmembers)
        (callSession_withinGrant host hresult)⟩
    · exact .inr h
  · obtain ⟨result, sessionId, session, rfl, hshaken, hname, hfound, rfl⟩ | h := health_spec h
    · exact .inl ⟨result, rfl, .healthy (hnamed.trans (congrArg some heq)) hshaken
        (hid.symm.trans hname) hfound⟩
    · exact .inr h
  · obtain ⟨result, sessionId, session, rfl, hshaken, hname, hfound, rfl⟩ | h := close_spec h
    · exact .inl ⟨result, rfl, .closed (hnamed.trans (congrArg some heq)) hshaken
        (hid.symm.trans hname) hfound⟩
    · exact .inr h
  · exact .inr (refused_of_throw h)

/-- **The step lemma.** A line is answered, and does what its method does, or refused. -/
theorem respond_spec {line : Line} (hsafe : ¬ Hazardous host line provider) :
    (∃ result after, respond host line provider = (.answered (line.id host) result, after) ∧
      Does host line provider result after) ∨
    ∃ error, respond host line provider = (.refused (line.id host) error, provider) := by
  unfold respond
  cases hrequest : host.parse line.text with
  | none => exact .inr ⟨_, by rw [Line.id, hrequest]; rfl⟩
  | some request =>
    have hid : line.id host = requestId request := by rw [Line.id, hrequest]; rfl
    rw [hid]
    cases hhandle : handle host line.env request provider with
    | mk reply after =>
      obtain ⟨result, rfl, hdoes⟩ | ⟨⟨error, rfl⟩, rfl⟩ := handle_spec hrequest hsafe hhandle
      · exact .inl ⟨result, after, by simp only [hhandle], hdoes⟩
      · exact .inr ⟨error, by simp only [hhandle]⟩

end Machine

end LivefireRag.ToolProvider
