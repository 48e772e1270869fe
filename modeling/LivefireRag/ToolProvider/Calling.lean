import LivefireRag.ToolProvider.Opening

/-!
# Calling a tool

A call looks its session up, checks its tool and its arguments, asks the mounted index
(`callHits`) and describes the hits (`searchOutput`). The description looks every
occurrence's snapshot up among those of the session; an occurrence of another snapshot
ends the process (`callSession_eq_aborted_iff`).
-/

namespace LivefireRag.ToolProvider

open Machine Fallible Index

section Calling

variable {Score : Type} (host : Host Score)

/-! ### Arguments -/

def relationTexts (rows : List Json) : Result (List String) :=
  rows.mapM fun row =>
    orThrow row.asStr (.new "invalid_request" "filters.relations must be strings")

def parseRelations (value : Option Json) : Result (List String) :=
  match value with
  | none => return []
  | some (.array rows) => relationTexts rows
  | some _ => .error (.new "invalid_request" "filters.relations must be an array")

def filterFields : List String := ["relations", "time_start_ms", "time_end_ms"]

/-- The relations are a set. -/
def parseFilters (value : Option Json) : Result SearchFilters :=
  match value with
  | none => return ⟨[], none, none⟩
  | some value => do
    let members ← exactObject value filterFields [] "filters"
    let relations ← parseRelations (Json.field? members "relations")
    let timeStartMs ← optionalU64 members "time_start_ms"
    let timeEndMs ← optionalU64 members "time_end_ms"
    throwIf (∃ start ∈ timeStartMs, ∃ stop ∈ timeEndMs, stop ≤ start)
      (.new "invalid_request" "filter time range is empty")
    return ⟨distinctSorted relations, timeStartMs, timeEndMs⟩

/-- The relations in the order and number of the request. -/
def requestRelationSurface (filters : Option Json) : Result (List String) :=
  match filters with
  | none => return []
  | some filters => do
    let members ← orThrow filters.asObject (.new "invalid_request" "filters must be an object")
    parseRelations (Json.field? members "relations")

/-- The number of results, within the limit of the session. -/
def boundTopN (session : Session) (arguments : Members) : Result U64 := do
  let topN ← positiveUsize arguments "top_n" "arguments"
  throwIf (session.maxCandidates < topN ∨ 100 < topN)
    (.new "resource_exhausted" "top_n exceeds the bound max_candidates")
  return topN

def mapIndexError : IndexError → Fault
  | .invalid _ => .new "invalid_request" "search request is invalid"
  | .aborted => .aborted
  | _ => .new "corrupt_artifact" "bound index artifact is invalid"

/-! ### Query vectors -/

def sealedQueryVector (sealedSet : Pipeline.SealedQueryVectorSet) (query composed mode : String)
    (topN : U64) (relations : List String) (filters : SearchFilters) : Result (List F32) := do
  throwIf (filters.timeStartMs.isSome ∨ filters.timeEndMs.isSome)
    (.new "invalid_request" "sealed query-vector requests do not admit time filters")
  orThrowAs (sealedSet.vectorForUniqueRequest host.prims query composed mode topN relations)
    (.new "invalid_request" "search request is not uniquely admitted by the sealed query-vector set")

def embedBoundQuery (reply : EmbeddingReply) (profile : Embedding.EmbeddingProfile) :
    Result (List F32) :=
  match reply with
  | .invalidClient => .error (.new "invalid_binding" "embedding client is invalid")
  | .timedOut => .error (.new "deadline_exceeded" "query embedding exceeded the call deadline")
  | .failed => .error (.retry "unavailable" "query embedding failed")
  | .answered returnedModel vectors => do
    throwIf (returnedModel ≠ profile.model ∨ vectors.length ≠ 1)
      (.new "invalid_binding" "query embedding response differs from the bound model")
    let vector ← orThrow vectors.head?
      (.new "unavailable" "query embedding response was empty")
    let vector ← orThrowAs
      (Embedding.adaptModelVector host.unitNorm host.normalizePrefix profile vector)
      (.retry "unavailable" "query embedding violated its profile")
    orThrowAs
      (Embedding.validateVector host.unitNorm vector profile.dimensions profile.normalization)
      (.retry "unavailable" "query embedding violated its profile")
    return vector

/-- The vector of a query, from the sealed set or from the embedding service. -/
def queryVector (env : Surroundings) (session : Session) (filters : Option Json)
    (query mode : String) (topN : U64) (parsed : SearchFilters) (wallMs : ℕ) :
    Result (List F32) := do
  let profile := session.index.manifest.embeddingProfile
  let composed ← orThrowAs (Embedding.tryComposeQuery profile query)
    (.new "invalid_binding" "query composition contract is invalid")
  match session.queryVectorSet with
  | some sealedSet => do
    let relations ← requestRelationSurface filters
    sealedQueryVector host sealedSet query composed mode topN relations parsed
  | none => do
    let endpoint ← orThrow session.embeddingEndpoint
      (.new "unavailable" "dense retrieval requires a bound query-vector source")
    embedBoundQuery host (env.embed endpoint profile.model wallMs composed) profile

/-! ### Hits -/

/-- What the index answers: the number of results asked for, the hits, and the seed of a
similarity call with its exclusion, or the query of a search. -/
structure CallHits (Score : Type) where
  topN : U64
  hits : List (SearchHit Score)
  subject : (String × Bool) ⊕ String

def similarFields : List String :=
  ["schema_version", "document_id", "top_n", "exclude_seed", "filters"]

def parseExcludeSeed (value : Option Json) : Result Bool :=
  match value with
  | none => return true
  | some (.bool value) => return value
  | some _ => .error (.new "invalid_request" "exclude_seed must be boolean")

def similarHits (session : Session) (arguments : Json) : Result (CallHits Score) := do
  let arguments ← exactObject arguments similarFields ["schema_version", "document_id", "top_n"]
    "arguments"
  let schemaVersion ← string arguments "schema_version" "arguments"
  throwIf (schemaVersion ≠ "livefire.rag.fast-similar.input/1")
    (.new "invalid_request" "unsupported similarity input schema")
  let documentId ← string arguments "document_id" "arguments"
  throwIf (documentId = "" ∨ 512 < documentId.utf8ByteSize)
    (.new "invalid_request" "document_id length is invalid")
  let topN ← boundTopN session arguments
  let excludeSeed ← parseExcludeSeed (Json.field? arguments "exclude_seed")
  let filters ← parseFilters (Json.field? arguments "filters")
  let found ← (session.index.similar host.prims host.readers host.scoring documentId filters topN
    excludeSeed).mapError mapIndexError
  let hits ← orThrow found (.new "not_found" "seed document is not in the bound index")
  return ⟨topN, hits, .inl (documentId, excludeSeed)⟩

def parseMode (text : String) : Result SearchMode :=
  if text = "dense" then return .dense
  else if text = "lexical" then return .lexical
  else if text = "fused" then return .fused
  else .error (.new "invalid_request" "search mode is invalid")

def searchHits (env : Surroundings) (session : Session) (wallMs : ℕ) (arguments : Json) :
    Result (CallHits Score) := do
  let arguments ← exactObject arguments ["schema_version", "query", "mode", "top_n", "filters"]
    ["schema_version", "query", "mode", "top_n"] "arguments"
  let schemaVersion ← string arguments "schema_version" "arguments"
  throwIf (schemaVersion ≠ "livefire.rag.fast-search.input/1")
    (.new "invalid_request" "unsupported search input schema")
  let query ← string arguments "query" "arguments"
  throwIf (query = "" ∨ 8192 < query.utf8ByteSize)
    (.new "invalid_request" "query length is invalid")
  let modeText ← string arguments "mode" "arguments"
  let mode ← parseMode modeText
  let topN ← boundTopN session arguments
  let filters ← parseFilters (Json.field? arguments "filters")
  let vector ← (if mode.UsesVector then some () else none).mapM fun _ =>
    queryVector host env session (Json.field? arguments "filters") query modeText topN filters
      wallMs
  let hits ← (session.index.search host.prims host.readers host.scoring mode query vector filters
    topN).mapError mapIndexError
  return ⟨topN, hits, .inr query⟩

def toolHits (env : Surroundings) (session : Session) (wallMs : ℕ) (arguments : Json) :
    Result (CallHits Score) :=
  match session.grantedTool with
  | .similar => similarHits host session arguments
  | .search => searchHits host env session wallMs arguments

/-! ### Outputs -/

def snapshotSha256 (snapshot : Json) : Option String := (snapshot.get? "sha256").bind Json.asStr

/-- The reference of an occurrence. Its snapshot is one of the session's. -/
def evidenceRef (session : Session) (occurrence : EvidenceOccurrence) : Result Json := do
  let snapshot ← orThrow
    (session.sourceSnapshots.find? (snapshotSha256 · = some occurrence.snapshotSha256)) .aborted
  return .mkObject [("schema_version", .string "livefire.ocsf-hydration-ref/1"),
    ("snapshot", snapshot), ("mapping", session.mappingPack),
    ("relation", .string occurrence.relation), ("event_id", .string occurrence.eventId),
    ("support_ref", .string occurrence.supportRef)]

def candidate (session : Session) (hit : SearchHit Score) : Result Json := do
  let evidence ← hit.occurrences.mapM (evidenceRef session)
  return .mkObject [("rank", toJson hit.rank), ("document_id", .string hit.documentId),
    ("scores", .mkObject [("retrieval", host.scoreJson hit.score),
      ("dense", hit.denseScore.elim .null host.scoreJson),
      ("lexical", hit.lexicalScore.elim .null host.scoreJson)]),
    ("eligible_evidence_count", toJson hit.eligibleOccurrenceCount),
    ("evidence_exhausted", .bool hit.occurrencesExhausted), ("evidence", .array evidence)]

/-- The kind of an output: what was missed, or the candidates. -/
def outcomeFields (missMessage : String) (candidates : List Json) : List (String × Json) :=
  if candidates = [] then
    [("kind", .string "miss"), ("miss", .mkObject [("reason", .string "no_ranked_candidates"),
      ("message", .string missMessage)])]
  else [("kind", .string "pointer"), ("candidates", .array candidates)]

/-- The members that name the tool and what was asked. -/
def subjectFields : (String × Bool) ⊕ String → List (String × Json)
  | .inr query => [("schema_version", .string "livefire.rag.fast-search.output/1"),
      ("tool", .string "evidence.search"), ("query", .string query)]
  | .inl (documentId, excludeSeed) =>
    [("schema_version", .string "livefire.rag.fast-similar.output/1"),
      ("tool", .string "evidence.similar"), ("seed_document_id", .string documentId),
      ("seed_excluded", .bool excludeSeed)]

def missMessage : (String × Bool) ⊕ String → String
  | .inr _ => "No indexed semantic document matched the query."
  | .inl _ => "No eligible indexed neighbour matched the seed document."

/-- The output of either tool; a similarity output is a search output with other
members. -/
def callOutput (session : Session) (found : CallHits Score) : Result Json := do
  let reasonCodes := ["candidate_occurrences_require_authoritative_hydration",
    "semantic_candidate_index_not_source_coverage"] ++
    if session.index.manifest.complete then [] else ["sample_not_corpus_coverage"]
  let candidates ← found.hits.mapM (candidate host session)
  return .mkObject <| subjectFields found.subject ++
    [("index", session.indexRef), ("source_snapshots", .array session.sourceSnapshots),
      ("coverage", .mkObject [("status", .string "partial"),
        ("indexed_documents", toJson session.index.manifest.documents.rows),
        ("definitive", .bool false), ("reason_codes", texts reasonCodes)]),
      ("selection", .mkObject [("requested_top_n", toJson found.topN),
        ("returned_count", toJson found.hits.length), ("deterministic", .bool true),
        ("tie_break", .string "score_desc_document_id_asc")])] ++
    outcomeFields (missMessage found.subject) candidates

def enforceCallOutput (env : Surroundings) (session : Session) (output : Json)
    (effectiveWallMs : ℕ) (requestDeadlineMs : U64) : Result Unit := do
  throwIf (effectiveWallMs * 1000000 ≤ env.elapsedNanos ∨ requestDeadlineMs ≤ env.answeredAt)
    (.new "deadline_exceeded" "call exceeded its wall-time limit")
  throwIf ((session.resultBytes : ℕ) < (host.encode output).length)
    (.new "resource_exhausted" "tool output exceeds limits.result_bytes")

/-! ### A call of a session -/

/-- What the index answers to a call, after the checks of the call. -/
def callHits (env : Surroundings) (session : Session) (params : Members)
    (requestDeadlineMs : U64) (encodedRequestBytes : ℕ) : Result (CallHits Score × ℕ) := do
  throwIf ((session.requestBytes : ℕ) < encodedRequestBytes)
    (.new "resource_exhausted" "request exceeds limits.request_bytes")
  let remaining := (requestDeadlineMs : ℕ) - (env.calledAt : ℕ)
  let effectiveWallMs := min remaining (session.wallTimeMs : ℕ)
  throwIf (effectiveWallMs = 0) (.new "deadline_exceeded" "call deadline has expired")
  throwIf (Json.field? params "tool" != some (session.grantedTool.reference host))
    (.new "policy_denied" "tool is not granted to this session")
  let found ← toolHits host env session effectiveWallMs
    ((Json.field? params "arguments").getD .null)
  return (found, effectiveWallMs)

def callSession (env : Surroundings) (session : Session) (params : Members)
    (requestDeadlineMs : U64) (encodedRequestBytes : ℕ) : Result Json := do
  let (found, effectiveWallMs) ← callHits host env session params requestDeadlineMs
    encodedRequestBytes
  let output ← callOutput host session found
  enforceCallOutput host env session output effectiveWallMs requestDeadlineMs
  return .mkObject [("response_kind", .string "call"), ("output", output)]

/-! ### What a call keeps to -/

/-- A successful call is one of the granted tool, asks for no more results than the
session admits, and its output is no longer than the session admits. -/
structure WithinGrant (session : Session) (params : Members) (result : Json) : Prop where
  tool : Json.field? params "tool" = some (session.grantedTool.reference host)
  topN : ∃ topN : U64, (((Json.field? params "arguments").getD .null).get? "top_n").bind
    Json.asU64 = some topN ∧ topN ≤ session.maxCandidates
  output : ∃ output, result = .mkObject [("response_kind", .string "call"), ("output", output)] ∧
    (host.encode output).length ≤ (session.resultBytes : ℕ)

theorem boundTopN_eq_ok {session : Session} {arguments : Members} {topN : U64}
    (h : boundTopN session arguments = .ok topN) :
    (Json.field? arguments "top_n").bind Json.asU64 = some topN ∧
      topN ≤ session.maxCandidates := by
  simp only [boundTopN, positiveUsize, positiveU64, bind_eq_ok, exists_unit, orThrow_eq_ok,
    throwIf_eq_ok, pure_eq_ok, not_or, not_lt] at h
  obtain ⟨_, ⟨_, hread, -, rfl⟩, ⟨hle, -⟩, rfl⟩ := h
  exact ⟨hread, hle⟩

theorem toolHits_topN {env : Surroundings} {session : Session} {wallMs : ℕ} {arguments : Json}
    {found : CallHits Score} (h : toolHits host env session wallMs arguments = .ok found) :
    ∃ topN : U64, (arguments.get? "top_n").bind Json.asU64 = some topN ∧
      topN ≤ session.maxCandidates := by
  unfold toolHits at h
  split at h
  · simp only [similarHits, bind_eq_ok, exists_unit] at h
    obtain ⟨members, hmembers, _, -, -, _, -, -, topN, htopN, -⟩ := h
    obtain ⟨rfl, -⟩ := exactObject_eq_ok hmembers
    exact ⟨topN, boundTopN_eq_ok htopN⟩
  · simp only [searchHits, bind_eq_ok, exists_unit] at h
    obtain ⟨members, hmembers, _, -, -, _, -, -, _, -, _, -, topN, htopN, -⟩ := h
    obtain ⟨rfl, -⟩ := exactObject_eq_ok hmembers
    exact ⟨topN, boundTopN_eq_ok htopN⟩

theorem callSession_withinGrant {env : Surroundings} {session : Session} {params : Members}
    {deadline : U64} {encodedRequestBytes : ℕ} {result : Json}
    (h : callSession host env session params deadline encodedRequestBytes = .ok result) :
    WithinGrant host session params result := by
  obtain ⟨⟨found, wallMs⟩, hfound, h⟩ := bind_eq_ok.mp h
  simp only [callHits, bind_eq_ok, exists_unit, throwIf_eq_ok, pure_eq_ok, Prod.mk.injEq] at hfound
  obtain ⟨-, -, htool, _, hhits, rfl, -⟩ := hfound
  obtain ⟨output, -, h⟩ := bind_eq_ok.mp h
  simp only [enforceCallOutput, bind_eq_ok, exists_unit, throwIf_eq_ok, pure_eq_ok, not_lt] at h
  obtain ⟨⟨-, hbytes⟩, rfl⟩ := h
  refine ⟨?_, toolHits_topN host hhits, output, rfl, hbytes⟩
  cases hfield : Json.field? params "tool" with
  | none =>
    rw [hfield] at htool
    exact absurd rfl htool
  | some tool =>
    rw [hfield] at htool
    have hbeq : tool == session.grantedTool.reference host := by
      simpa [bne] using htool
    rw [GrantedTool.beq_reference host |>.mp hbeq]

/-! ### When a call ends the process -/

/-- The occurrence is of a snapshot of the session. -/
def Session.Binds (session : Session) (occurrence : EvidenceOccurrence) : Prop :=
  ∃ snapshot ∈ session.sourceSnapshots, snapshotSha256 snapshot = some occurrence.snapshotSha256

theorem exists_evidenceRef {session : Session} {occurrence : EvidenceOccurrence} :
    (∃ ref, evidenceRef session occurrence = .ok ref) ↔ session.Binds occurrence := by
  simp only [evidenceRef, bind_eq_ok, orThrow_eq_ok, pure_eq_ok]
  constructor
  · rintro ⟨_, snapshot, hfound, -⟩
    exact ⟨snapshot, List.mem_of_find?_eq_some hfound, by simpa using List.find?_some hfound⟩
  · rintro ⟨snapshot, hmem, hsha⟩
    have hsome : (session.sourceSnapshots.find? fun snapshot =>
        snapshotSha256 snapshot = some occurrence.snapshotSha256).isSome :=
      List.find?_isSome.mpr ⟨snapshot, hmem, decide_eq_true hsha⟩
    obtain ⟨found, hfound⟩ := Option.isSome_iff_exists.mp hsome
    exact ⟨_, found, hfound, rfl⟩

theorem exists_callOutput {session : Session} {found : CallHits Score} :
    (∃ output, callOutput host session found = .ok output) ↔
      ∀ hit ∈ found.hits, ∀ occurrence ∈ hit.occurrences, session.Binds occurrence := by
  have hcandidate : ∀ hit : SearchHit Score, (∃ value, candidate host session hit = .ok value) ↔
      ∀ occurrence ∈ hit.occurrences, session.Binds occurrence := by
    intro hit
    simp only [candidate, bind_eq_ok, pure_eq_ok, exists_comm (α := Json), exists_eq', and_true,
      exists_mapM_eq_ok, exists_evidenceRef, exists_and_left]
  simp only [callOutput, bind_eq_ok, pure_eq_ok, exists_comm (α := Json), exists_and_left,
    exists_eq', and_true, exists_mapM_eq_ok, hcandidate]

/-- Describing hits fails in one way only. -/
theorem callOutput_avoids {error : Fault} (h : error ≠ .aborted) (session : Session)
    (found : CallHits Score) : Avoids error (callOutput host session found) := by
  refine avoids_bind (avoids_mapM fun hit _ => ?_) fun _ _ => avoids_pure _
  refine avoids_bind (avoids_mapM fun occurrence _ => ?_) fun _ _ => avoids_pure _
  exact avoids_bind (avoids_orThrow h.symm) fun _ _ => avoids_pure _

section Avoids

theorem parseRelations_avoids_aborted (value : Option Json) :
    Avoids .aborted (parseRelations value) := by
  unfold parseRelations
  split
  · exact avoids_pure _
  · exact avoids_mapM fun _ _ => avoids_orThrow new_ne_aborted
  · exact avoids_error new_ne_aborted

theorem optionalU64_avoids_aborted (object : Members) (field : String) :
    Avoids .aborted (optionalU64 object field) := by
  unfold optionalU64
  split
  · exact avoids_pure _
  · exact avoids_bind (avoids_orThrow new_ne_aborted) fun _ _ => avoids_pure _

theorem parseFilters_avoids_aborted (value : Option Json) :
    Avoids .aborted (parseFilters value) := by
  unfold parseFilters
  split
  · exact avoids_pure _
  · refine avoids_bind (exactObject_avoids_aborted _ _ _ _) fun members _ => ?_
    refine avoids_bind (parseRelations_avoids_aborted _) fun relations _ => ?_
    iterate 2 refine avoids_bind (optionalU64_avoids_aborted _ _) fun _ _ => ?_
    exact avoids_bind (avoids_throwIf new_ne_aborted) fun _ _ => avoids_pure _

theorem boundTopN_avoids_aborted (session : Session) (arguments : Members) :
    Avoids .aborted (boundTopN session arguments) := by
  unfold boundTopN
  refine avoids_bind (positiveU64_avoids_aborted _ _ _) fun topN _ => ?_
  exact avoids_bind (avoids_throwIf new_ne_aborted) fun _ _ => avoids_pure _

/-- Only a search that ends the process is mapped to that end. -/
theorem avoids_mapIndexError {α : Type} {x : Index.Result α} (h : Avoids .aborted x) :
    Avoids .aborted (x.mapError mapIndexError) := by
  cases x with
  | ok a => exact avoids_ok a
  | error e =>
    cases e with
    | aborted => exact absurd rfl h
    | _ => exact avoids_error new_ne_aborted

theorem embedBoundQuery_avoids_aborted (reply : EmbeddingReply)
    (profile : Embedding.EmbeddingProfile) :
    Avoids .aborted (embedBoundQuery host reply profile) := by
  unfold embedBoundQuery
  split
  · exact avoids_error new_ne_aborted
  · exact avoids_error new_ne_aborted
  · exact avoids_error nofun
  · refine avoids_bind (avoids_throwIf new_ne_aborted) fun _ _ => ?_
    refine avoids_bind (avoids_orThrow new_ne_aborted) fun _ _ => ?_
    iterate 2 refine avoids_bind (avoids_orThrowAs nofun) fun _ _ => ?_
    exact avoids_pure _

theorem queryVector_avoids_aborted (env : Surroundings) (session : Session)
    (filters : Option Json) (query mode : String) (topN : U64) (parsed : SearchFilters)
    (wallMs : ℕ) :
    Avoids .aborted (queryVector host env session filters query mode topN parsed wallMs) := by
  unfold queryVector
  refine avoids_bind (avoids_orThrowAs new_ne_aborted) fun composed _ => ?_
  split
  · refine avoids_bind ?_ fun relations _ => ?_
    · unfold requestRelationSurface
      split
      · exact avoids_pure _
      · exact avoids_bind (avoids_orThrow new_ne_aborted) fun _ _ =>
          parseRelations_avoids_aborted _
    · exact avoids_bind (avoids_throwIf new_ne_aborted) fun _ _ =>
        avoids_orThrowAs new_ne_aborted
  · exact avoids_bind (avoids_orThrow new_ne_aborted) fun endpoint _ =>
      embedBoundQuery_avoids_aborted host _ _

theorem similarHits_avoids_aborted (session : Session) (arguments : Json) :
    Avoids .aborted (similarHits host session arguments) := by
  unfold similarHits
  refine avoids_bind (exactObject_avoids_aborted _ _ _ _) fun members _ => ?_
  iterate 2
    refine avoids_bind (string_avoids_aborted _ _ _) fun _ _ => ?_
    refine avoids_bind (avoids_throwIf new_ne_aborted) fun _ _ => ?_
  refine avoids_bind (boundTopN_avoids_aborted _ _) fun topN _ => ?_
  refine avoids_bind ?_ fun excludeSeed _ => ?_
  · unfold parseExcludeSeed
    split
    · exact avoids_pure _
    · exact avoids_pure _
    · exact avoids_error new_ne_aborted
  refine avoids_bind (parseFilters_avoids_aborted _) fun filters _ => ?_
  refine avoids_bind (avoids_mapIndexError
    (session.index.similar_avoids_aborted host.prims host.readers host.scoring _ _ _ _)) fun _ _ => ?_
  exact avoids_bind (avoids_orThrow new_ne_aborted) fun _ _ => avoids_pure _

theorem searchHits_avoids_aborted (env : Surroundings) (session : Session) (wallMs : ℕ)
    (arguments : Json) : Avoids .aborted (searchHits host env session wallMs arguments) := by
  unfold searchHits
  refine avoids_bind (exactObject_avoids_aborted _ _ _ _) fun members _ => ?_
  iterate 2
    refine avoids_bind (string_avoids_aborted _ _ _) fun _ _ => ?_
    refine avoids_bind (avoids_throwIf new_ne_aborted) fun _ _ => ?_
  refine avoids_bind (string_avoids_aborted _ _ _) fun modeText _ => ?_
  refine avoids_bind ?_ fun mode _ => ?_
  · unfold parseMode
    split_ifs
    · exact avoids_pure _
    · exact avoids_pure _
    · exact avoids_pure _
    · exact avoids_error new_ne_aborted
  refine avoids_bind (boundTopN_avoids_aborted _ _) fun topN _ => ?_
  refine avoids_bind (parseFilters_avoids_aborted _) fun filters _ => ?_
  refine avoids_bind ?_ fun vector _ => ?_
  · split
    · exact avoids_bind (queryVector_avoids_aborted host _ _ _ _ _ _ _ _) fun _ _ => avoids_pure _
    · exact avoids_pure _
  refine avoids_bind (avoids_mapIndexError (session.index.searchInternal_avoids_aborted
    host.prims host.readers host.scoring _ _ _ _ _ _)) fun _ _ => ?_
  exact avoids_pure _

theorem callHits_avoids_aborted (env : Surroundings) (session : Session) (params : Members)
    (deadline : U64) (encodedRequestBytes : ℕ) :
    Avoids .aborted (callHits host env session params deadline encodedRequestBytes) := by
  unfold callHits
  iterate 3 refine avoids_bind (avoids_throwIf new_ne_aborted) fun _ _ => ?_
  refine avoids_bind ?_ fun _ _ => avoids_pure _
  unfold toolHits
  split
  · exact similarHits_avoids_aborted host _ _
  · exact searchHits_avoids_aborted host _ _ _ _

theorem enforceCallOutput_avoids_aborted (env : Surroundings) (session : Session)
    (output : Json) (effectiveWallMs : ℕ) (deadline : U64) :
    Avoids .aborted (enforceCallOutput host env session output effectiveWallMs deadline) := by
  unfold enforceCallOutput
  exact avoids_bind (avoids_throwIf new_ne_aborted) fun _ _ => avoids_throwIf new_ne_aborted

end Avoids

/-- **A call ends the process exactly when the index answers it with an occurrence of
another snapshot.** -/
theorem callSession_eq_aborted_iff {env : Surroundings} {session : Session} {params : Members}
    {deadline : U64} {encodedRequestBytes : ℕ} :
    callSession host env session params deadline encodedRequestBytes = .error .aborted ↔
      ∃ found wallMs, callHits host env session params deadline encodedRequestBytes =
          .ok (found, wallMs) ∧
        ¬ ∀ hit ∈ found.hits, ∀ occurrence ∈ hit.occurrences, session.Binds occurrence := by
  unfold callSession
  cases hhits : callHits host env session params deadline encodedRequestBytes with
  | error e =>
    refine ⟨fun h => absurd hhits ?_, fun ⟨_, _, h, _⟩ => nomatch h⟩
    rw [Except.error.inj h]
    exact callHits_avoids_aborted host env session params deadline encodedRequestBytes
  | ok found =>
    obtain ⟨found, wallMs⟩ := found
    rw [ok_bind]
    dsimp only
    cases houtput : callOutput host session found with
    | ok output =>
      have hbinds := (exists_callOutput host).mp ⟨output, houtput⟩
      rw [ok_bind]
      refine ⟨fun h => absurd h ?_, fun ⟨_, _, h, hnot⟩ => ?_⟩
      · exact avoids_bind (enforceCallOutput_avoids_aborted host _ _ _ _ _) fun _ _ =>
          avoids_pure _
      · obtain ⟨rfl, rfl⟩ := Prod.mk.inj (Except.ok.inj h)
        exact absurd hbinds hnot
    | error e =>
      obtain rfl : e = .aborted := by
        by_contra hne
        exact callOutput_avoids host hne session found houtput
      refine ⟨fun _ => ⟨found, wallMs, rfl, fun hbinds => ?_⟩, fun _ => rfl⟩
      obtain ⟨output, hok⟩ := (exists_callOutput host).mpr hbinds
      rw [houtput] at hok
      cases hok

end Calling

end LivefireRag.ToolProvider
