import LivefireRag.ToolProvider.Basic

/-!
# Opening a session

`prepareSession` is what `open` does before it changes the provider: it reads the
request, compares it with the mounted binding lock, the admission receipt, the index and
the vectors, and reads the limits of the session.

`prepareSession_spec`: a session is granted the one tool of its request and has the limits
of its request. `prepareSession_avoids_aborted`: preparing ends in an answer unless the
manifest of the mounted index holds a digest that is cut inside a character.
-/

namespace LivefireRag.ToolProvider

open Machine Fallible Index

abbrev Members := List (String × Json)

structure Session where
  index : OpenFastIndex
  indexRef : Json
  sourceSnapshots : List Json
  mappingPack : Json
  bindingLockSha256 : String
  embeddingEndpoint : Option String
  queryVectorSet : Option Pipeline.SealedQueryVectorSet
  requestBytes : U64
  resultBytes : U64
  wallTimeMs : U64
  maxCandidates : U64
  grantedTool : GrantedTool

section Opening

variable {Score : Type} (host : Host Score)

/-! ### Mounts -/

/-- The file that is mounted, or the named file of a directory that is. -/
def Mount.read (mount : Mount) (filename : String) : Option (List UInt8) :=
  if mount.isDirectory then mount.files filename else mount.content

def readMountBytes (mount : Mount) (filename : String) : Result (List UInt8) :=
  orThrow (mount.read filename)
    (.new "corrupt_artifact" ("mounted " ++ filename ++ " is unreadable"))

def readJsonMount (mount : Mount) (filename : String) : Result Json := do
  let bytes ← readMountBytes mount filename
  orThrow ((Text.fromUtf8 bytes).bind host.parse)
    (.new "corrupt_artifact" ("mounted " ++ filename ++ " is invalid JSON"))

/-- The mounted directory as that of an index. -/
def Mount.indexDirectory (mount : Mount) : IndexDirectory where
  manifest := if mount.isDirectory then
    (mount.files "index.json").bind host.readIndexManifest else none
  artifact path := if mount.isDirectory ∧ mount.contained path then mount.files path else none

/-- The mounted directory as that of a query-vector set. -/
def Mount.queryVectorFiles (mount : Mount) : Option Pipeline.QueryVectorFiles := do
  let manifest ← mount.files "manifest.json"
  let plan ← mount.files Pipeline.queryVectorSetPlan
  let vectors ← mount.files Pipeline.queryVectorSetVectors
  return ⟨manifest, plan, vectors⟩

def mountFields : List String := ["logical_name", "role", "component", "access", "process_path"]

/-- One mount of the request. -/
def addMount (mounts : SortedMap String Members) (row : Json) :
    Result (SortedMap String Members) := do
  let mount ← exactObject row mountFields mountFields "mount"
  let name ← string mount "logical_name" "mount"
  let access ← string mount "access" "mount"
  throwIf (access ≠ "read_only" ∨ (mounts.get? name).isSome)
    (.new "policy_denied" "mounts must be uniquely named and read-only")
  validateComponent ((Json.field? mount "component").getD .null) "mount component"
  let path ← string mount "process_path" "mount"
  throwIf (path = "") (.new "invalid_binding" "mount path must be non-empty")
  return mounts.insert name mount

def mountsByName (rows : List Json) (queryVectorSet : Bool) :
    Result (SortedMap String Members) := do
  throwIf (rows.length ≠ if queryVectorSet then 5 else 4)
    (.new "invalid_binding" "open requires the exact immutable mount set")
  let mounts ← rows.foldlM addMount SortedMap.empty
  let expected := ["embedding-profile", "evidence-index", "index-admission-receipt"] ++
    (if queryVectorSet then ["query-vector-set"] else []) ++ ["tool-binding-lock"]
  throwIf (mounts.keys ≠ expected)
    (.new "invalid_binding" "mount set is not the exact provider contract")
  return mounts

def requiredMount (mounts : SortedMap String Members) (name role : String) : Result Members := do
  let mount ← orThrow (mounts.get? name) (.new "invalid_binding" "required mount is absent")
  let actual ← string mount "role" "mount"
  throwIf (actual ≠ role) (.new "invalid_binding" (name ++ " mount role is invalid"))
  return mount

def mountComponentSha (mount : Members) : Option String :=
  ((Json.field? mount "component").bind (Json.get? · "sha256")).bind Json.asStr

/-! ### The request -/

def loopbackPrefix := "loopback:"

/-- The text after a prefix. -/
def stripPrefix (beginning text : String) : Option String :=
  if beginning.toList.isPrefixOf text.toList then
    some (String.ofList (text.toList.drop beginning.toList.length)) else none

def loopbackEndpoint (contract : Json) : Result (Option String) := do
  let fields := ["mode", "network", "secret_handles", "vendor_services"]
  let contract ← exactObject contract fields fields "query_time_contract"
  throwIf (Json.field? contract "secret_handles" != some (.array []) ∨
      Json.field? contract "vendor_services" != some (.array []))
    (.new "policy_denied" "embedding contract must be secret-free and vendor-free")
  let mode ← string contract "mode" "query_time_contract"
  let network ← array contract "network" "query_time_contract"
  if mode = "offline_closed" ∧ network.length = 0 then return none
  throwIf (mode ≠ "local_component" ∨ network.length ≠ 1)
    (.new "invalid_binding" "local_component requires exactly one loopback endpoint")
  let endpoint ← orThrow ((network.head?.bind Json.asStr).bind (stripPrefix loopbackPrefix))
    (.new "policy_denied" "embedding endpoint must be loopback")
  let endpoint ← orThrow (host.normalizeLoopbackHttpEndpoint endpoint)
    (.new "policy_denied" "embedding endpoint is not exact loopback HTTP")
  return some endpoint

/-- The fields of an `open` request and the mounts it names. -/
structure OpenRequest where
  params : Members
  grantedTool : GrantedTool
  indexRef : Json
  sourceSnapshot : Json
  bindingLockSha256 : String
  embeddingEndpoint : Option String
  indexMount : Members
  lockMount : Members
  receiptMount : Members
  embeddingMount : Members
  queryVectorMount : Option Members
  deriving DecidableEq

def openFields : List String := ["provider", "tools", "indexes", "source_snapshots",
  "binding_lock_sha256", "query_time_contract", "limits", "mounts"]

/-- The only element of a list of the request. -/
def onlyElement (params : Members) (field message : String) : Result Json := do
  let elements ← array params field "params"
  throwIf (elements.length ≠ 1) (.new "invalid_binding" message)
  return elements.head?.getD .null

def readOpenRequest (providerRef params : Json) : Result OpenRequest := do
  let params ← exactObject params openFields openFields "params"
  throwIf (Json.field? params "provider" != some providerRef)
    (.new "invalid_binding" "provider or tool identity is incompatible")
  let tool ← onlyElement params "tools" "open requires exactly one granted tool"
  let grantedTool ← orThrow (GrantedTool.fromRef host tool)
    (.new "invalid_binding" "granted tool identity is incompatible")
  let indexRef ← onlyElement params "indexes" "open requires exactly one index"
  validateComponent indexRef "index"
  let sourceSnapshot ← onlyElement params "source_snapshots"
    "fast index requires exactly one source snapshot"
  validateComponent sourceSnapshot "source snapshot"
  let bindingLockSha256 ← string params "binding_lock_sha256" "params"
  validateSha256 bindingLockSha256 "binding_lock_sha256"
  let embeddingEndpoint ← loopbackEndpoint host
    ((Json.field? params "query_time_contract").getD .null)
  let usesQueryVectorSet : Bool := grantedTool = .search ∧ embeddingEndpoint = none
  throwIf (grantedTool = .similar ∧ embeddingEndpoint.isSome)
    (.new "invalid_binding" "tool and query-time network contract are incompatible")
  let rows ← array params "mounts" "params"
  let mounts ← mountsByName rows usesQueryVectorSet
  let indexMount ← requiredMount mounts "evidence-index" "index"
  throwIf (Json.field? indexMount "component" != some indexRef)
    (.new "invalid_binding" "index mount component is incompatible")
  let lockMount ← requiredMount mounts "tool-binding-lock" "policy"
  let receiptMount ← requiredMount mounts "index-admission-receipt" "policy"
  let embeddingMount ← requiredMount mounts "embedding-profile" "model"
  let queryVectorMount ← (if usesQueryVectorSet then some "query-vector-set" else none).mapM
    fun name => requiredMount mounts name "model"
  return ⟨params, grantedTool, indexRef, sourceSnapshot, bindingLockSha256, embeddingEndpoint,
    indexMount, lockMount, receiptMount, embeddingMount, queryVectorMount⟩

/-- The mount at the path a mount of the request names. -/
def mountAt (env : Surroundings) (mount : Members) (label : String) : Result Mount := do
  let path ← string mount "process_path" label
  return env.mounts path

/-- A field of the request, read without a check. -/
def OpenRequest.param (request : OpenRequest) (field : String) : Json :=
  (Json.field? request.params field).getD .null

/-! ### The binding lock -/

def lockFields : List String := ["schema_version", "descriptor", "provider", "executable",
  "input_schema", "output_schema", "index", "index_format", "index_admission_receipt",
  "source_snapshots", "retrieval_policy", "query_time_contract", "protocol", "limits"]

def readLock (env : Surroundings) (providerRef : Json) (request : OpenRequest) : Result Json := do
  let mount ← mountAt env request.lockMount "binding mount"
  let lock ← readJsonMount host mount "tool-binding-lock.json"
  throwIf (canonicalSha256 host lock ≠ request.bindingLockSha256 ∨
      mountComponentSha request.lockMount ≠ some request.bindingLockSha256)
    (.new "invalid_binding" "mounted binding lock identity does not match its bytes")
  let members ← orThrow lock.asObject
    (.new "corrupt_artifact" "binding lock must be an object")
  throwIf ((∃ field ∈ lockFields, field ∉ members.map Prod.fst) ∨
      lock.member "schema_version" != .string "livefire.tool-binding-lock/1" ∨
      lock.member "descriptor" != request.grantedTool.reference host ∨
      lock.member "provider" != providerRef ∨
      lock.member "input_schema" != request.grantedTool.inputSchema host ∨
      lock.member "output_schema" != request.grantedTool.outputSchema host ∨
      lock.member "index" != request.indexRef ∨
      manifestSchemaForFormat host (lock.member "index_format") = none ∨
      lock.member "retrieval_policy" != request.grantedTool.retrievalPolicy host ∨
      lock.member "protocol" != .string protocol ∨
      lock.member "source_snapshots" != request.param "source_snapshots" ∨
      lock.member "query_time_contract" != request.param "query_time_contract" ∨
      lock.member "limits" != request.param "limits")
    (.new "invalid_binding" "runtime binding differs from the mounted lock")
  return lock

def checkExecutable (env : Surroundings) (lock : Json) : Result Unit := do
  let executable ← orThrow (lock.member "executable").asObject
    (.new "invalid_binding" "binding executable must be an artifact")
  let running ← orThrow env.runningExecutable
    (.new "corrupt_artifact" "running executable is unreadable")
  throwIf ((Json.field? executable "sha256").bind Json.asStr ≠ some (host.prims.sha256 running).val ∨
      ((Json.field? executable "bytes").bind Json.asU64).map Fin.val ≠ some running.length)
    (.new "invalid_binding" "binding executable differs from the running provider")

def admissionChecks : List String := ["object_digests", "source_binding", "safe_paths",
  "schema_profiles", "coverage_closure", "pointer_closure", "offline_query_conformance",
  "conformance"]

def admissionChecksPass (receipt : Json) : Bool :=
  ((receipt.get? "checks").bind Json.asObject).any fun checks =>
    admissionChecks.all fun name => Json.field? checks name == some (.bool true)

def checkReceipt (env : Surroundings) (request : OpenRequest) (lock : Json) : Result Unit := do
  let mount ← mountAt env request.receiptMount "receipt mount"
  let receipt ← readJsonMount host mount "index-admission-receipt.json"
  let digest := canonicalSha256 host receipt
  throwIf (mountComponentSha request.receiptMount ≠ some digest ∨
      (lock.pointer ["index_admission_receipt", "sha256"]).bind Json.asStr ≠ some digest ∨
      receipt.member "schema_version" != .string "livefire.index-admission/1" ∨
      receipt.member "receipt_id" != (lock.member "index_admission_receipt").member "id" ∨
      receipt.member "receipt_version" !=
        (lock.member "index_admission_receipt").member "version" ∨
      receipt.member "disposition" != .string "admitted" ∨
      receipt.member "index_manifest_sha256" != request.indexRef.member "sha256" ∨
      ¬ (receipt.member "authority_signature").asStr.any (· ≠ "") ∨
      ¬ admissionChecksPass receipt)
    (.new "invalid_binding" "mounted index admission receipt is invalid or incompatible")

/-! ### The index -/

/-- One object of the wrapper. -/
def verifyWrapperObject (mount : Mount) (object : Json) : Result Unit := do
  let relative ← orThrow (object.member "path").asStr
    (.new "corrupt_artifact" "SDK index object path is invalid")
  throwIf (relative.toList.head? = some '/' ∨
      ∃ part ∈ Text.split '/' relative, part = "" ∨ part = "." ∨ part = "..")
    (.new "corrupt_artifact" "SDK index object path is unsafe")
  let content ← orThrow (if mount.isDirectory then mount.files relative else none)
    (.new "corrupt_artifact" "SDK index object is unreadable")
  throwIf ((object.member "bytes").asU64.map Fin.val ≠ some content.length ∨
      object.member "sha256" != .string (host.prims.sha256 content).val)
    (.new "corrupt_artifact" "SDK index object identity mismatch")

def verifySdkIndexWrapper (mount : Mount) (indexRef : Json) : Result Json := do
  let wrapper ← readJsonMount host mount "sdk-index-manifest.json"
  throwIf (wrapper.member "schema_version" != .string "livefire.index/1" ∨
      wrapper.member "index_id" != indexRef.member "id" ∨
      wrapper.member "index_version" != indexRef.member "version" ∨
      Json.string (canonicalSha256 host wrapper) != indexRef.member "sha256")
    (.new "invalid_binding" "SDK index manifest identity is incompatible")
  let objects ← orThrow (wrapper.member "objects").asArray
    (.new "corrupt_artifact" "SDK index objects are absent")
  forM objects (verifyWrapperObject host mount)
  throwIf (¬ objects.any (· == wrapper.member "source_pointer_table"))
    (.new "invalid_binding" "SDK pointer table is outside the object inventory")
  return wrapper

/-- The query-time contract of the index: that of the request, with the components that
are needed locally. -/
def expectedQueryContract (request : OpenRequest) : Option Json :=
  let component (mount : Members) : Json := (Json.field? mount "component").getD .null
  let required : List Json := match request.grantedTool, request.queryVectorMount with
    | .search, some mount => [component request.embeddingMount, component mount]
    | .search, none => [component request.embeddingMount]
    | .similar, _ => []
  (request.param "query_time_contract").asObject.map fun members => .object
    (SortedMap.insertEntry "required_local_components" (.array required) members)

def refuseTestOnlyIndex (manifest : Json) : Result Unit :=
  throwIf ((manifest.get? "test_only").bind Json.asBool = some true)
    (.new "invalid_binding" "test-only indexes cannot be opened by the provider")

def openMountedIndex (mount : Mount) : Result OpenFastIndex :=
  match OpenFastIndex.open host.prims host.readers (mount.indexDirectory host) with
  | .ok index => .ok index
  | .error .aborted => .error .aborted
  | .error _ => .error (.new "corrupt_artifact" "mounted index failed fast open")

/-- The index and its mapping pack. -/
def bindIndex (env : Surroundings) (request : OpenRequest) (lock : Json) :
    Result (OpenFastIndex × Json) := do
  let mount ← mountAt env request.indexMount "index mount"
  let sdkIndex ← verifySdkIndexWrapper host mount request.indexRef
  -- the contract was read as an object before
  let expected ← orThrow (expectedQueryContract request) .aborted
  throwIf (sdkIndex.member "format" != lock.member "index_format" ∨
      sdkIndex.pointer ["source_bindings", "0", "source_snapshot"] !=
        some request.sourceSnapshot ∨
      sdkIndex.pointer ["policies", "retrieval"] != some (lock.member "retrieval_policy") ∨
      sdkIndex.pointer ["policies", "embedding"] != Json.field? request.embeddingMount "component" ∨
      sdkIndex.get? "query_time_contract" != some expected)
    (.new "invalid_binding" "SDK index format, source, or query-time binding is incompatible")
  let physicalManifest ← readJsonMount host mount "index.json"
  refuseTestOnlyIndex physicalManifest
  -- the format was compared before
  let schema ← orThrow (manifestSchemaForFormat host (lock.member "index_format")) .aborted
  throwIf (physicalManifest.member "schema_version" != .string schema ∨
      sdkIndex.pointer ["policies", "physical_index", "sha256"] !=
        physicalManifest.get? "component_sha256")
    (.new "invalid_binding" "mounted fast index component identity is incompatible")
  let index ← openMountedIndex host mount
  let mappingPack ← orThrow (sdkIndex.pointer ["policies", "mapping_pack"])
    (.new "invalid_binding" "SDK index mapping pack is absent")
  validateComponent mappingPack "mapping pack"
  throwIf ((mappingPack.get? "sha256").bind Json.asStr ≠ some index.manifest.source.mappingSha256)
    (.new "invalid_binding" "mapping pack does not match the mounted index")
  orThrowAs (Embedding.validateEmbeddingProfile index.manifest.embeddingProfile)
    (.new "invalid_binding" "index embedding profile has an invalid query contract")
  throwIf ((request.sourceSnapshot.get? "sha256").bind Json.asStr ≠
      some index.manifest.source.snapshotSha256)
    (.new "invalid_binding" "source snapshot does not match the mounted index")
  return (index, mappingPack)

def bindEmbeddingProfile (env : Surroundings) (request : OpenRequest) (index : OpenFastIndex) :
    Result Unit := do
  let mount ← mountAt env request.embeddingMount "embedding mount"
  let bytes ← readMountBytes mount "embedding-profile.json"
  let profile := index.manifest.embeddingProfile
  throwIf ((host.prims.sha256 bytes).val ≠ profile.sha256 ∨
      Json.field? request.embeddingMount "component" !=
        some (component profile.id profile.version profile.sha256))
    (.new "invalid_binding" "embedding profile mount differs from the indexed profile")

def openSealedSet (files : Pipeline.QueryVectorFiles) (expectedProfile : Pipeline.ComponentRef)
    (profile : Embedding.EmbeddingProfile) : Result Pipeline.SealedQueryVectorSet :=
  match Pipeline.SealedQueryVectorSet.open host.prims host.unitNorm
      (fun bytes => orThrow (host.readQueryVectorManifest bytes) (.json "manifest")) files
      expectedProfile profile.model profile.dimensions profile.normalization none with
  | .ok sealedSet => .ok sealedSet
  | .error .aborted => .error .aborted
  | .error _ => .error (.new "invalid_binding" "sealed query-vector set is invalid or incompatible")

def openBoundQueryVectorSet (mount : Mount) (component embeddingComponent : Json)
    (profile : Embedding.EmbeddingProfile) : Result Pipeline.SealedQueryVectorSet := do
  throwIf ((component.get? "id").bind Json.asStr ≠ some queryVectorSetComponentId ∨
      (component.get? "version").bind Json.asStr ≠ some queryVectorSetComponentVersion)
    (.new "invalid_binding" "query-vector-set component identity is incompatible")
  let expectedProfile ← orThrow (host.readComponentRef embeddingComponent)
    (.new "invalid_binding" "embedding component is incompatible")
  let files ← orThrow mount.queryVectorFiles
    (.new "invalid_binding" "sealed query-vector set is invalid or incompatible")
  let sealedSet ← openSealedSet host files expectedProfile profile
  throwIf ((component.get? "sha256").bind Json.asStr ≠
      some sealedSet.manifest.componentSha256.val)
    (.new "invalid_binding" "query-vector-set mount identity differs from its bytes")
  return sealedSet

/-- The query vectors, where the request mounts some. -/
def bindQueryVectors (env : Surroundings) (request : OpenRequest) (index : OpenFastIndex) :
    Result (Option Pipeline.SealedQueryVectorSet) :=
  request.queryVectorMount.mapM fun members => do
    let mount ← mountAt env members "query vector mount"
    openBoundQueryVectorSet host mount ((Json.field? members "component").getD .null)
      ((Json.field? request.embeddingMount "component").getD .null)
      index.manifest.embeddingProfile

/-! ### Limits -/

structure Limits where
  requestBytes : U64
  resultBytes : U64
  wallTimeMs : U64
  maxCandidates : U64

def limitFields : List String :=
  ["request_bytes", "result_bytes", "wall_time_ms", "memory_bytes", "max_candidates"]

def readLimits (value : Json) : Result Limits := do
  let limits ← exactObject value limitFields limitFields "limits"
  let requestBytes ← optionalPositiveUsize limits "request_bytes"
  let resultBytes ← optionalPositiveUsize limits "result_bytes"
  let wallTimeMs ← optionalPositiveU64 limits "wall_time_ms"
  -- the host enforces the limit of the memory
  let _ ← optionalPositiveU64 limits "memory_bytes"
  let maxCandidates ← optionalPositiveUsize limits "max_candidates"
  throwIf (100 < maxCandidates.getD 100)
    (.new "invalid_binding" "limits.max_candidates exceeds the fast-index bound")
  return ⟨requestBytes.getD 1048576, resultBytes.getD 1048576, wallTimeMs.getD 300000,
    maxCandidates.getD 100⟩

/-! ### The session -/

def prepareSession (env : Surroundings) (providerRef params : Json) : Result Session := do
  let request ← readOpenRequest host providerRef params
  let lock ← readLock host env providerRef request
  checkExecutable host env lock
  checkReceipt host env request lock
  let (index, mappingPack) ← bindIndex host env request lock
  bindEmbeddingProfile host env request index
  let queryVectorSet ← bindQueryVectors host env request index
  let limits ← readLimits (request.param "limits")
  throwIf (request.grantedTool = .search ↔
      ¬ xor request.embeddingEndpoint.isSome queryVectorSet.isSome)
    (.new "invalid_binding" "search requires exactly one bound query-vector source")
  return {
    index := index
    indexRef := request.indexRef
    sourceSnapshots := [request.sourceSnapshot]
    mappingPack := mappingPack
    bindingLockSha256 := request.bindingLockSha256
    embeddingEndpoint := request.embeddingEndpoint
    queryVectorSet := queryVectorSet
    requestBytes := limits.requestBytes
    resultBytes := limits.resultBytes
    wallTimeMs := limits.wallTimeMs
    maxCandidates := limits.maxCandidates
    grantedTool := request.grantedTool }

/-! ### What a session is granted -/

/-- The session has the tool and the limits of the request. -/
structure GrantedBy (params : Json) (session : Session) : Prop where
  tool : params.get? "tools" = some (.array [session.grantedTool.reference host])
  maxCandidates : ((params.member "limits").get? "max_candidates").bind Json.asU64 =
    some session.maxCandidates
  resultBytes : ((params.member "limits").get? "result_bytes").bind Json.asU64 =
    some session.resultBytes

theorem exactObject_eq_ok {value : Json} {allowed required : List String} {label : String}
    {members : Members} (h : exactObject value allowed required label = .ok members) :
    value = .object members ∧ ∀ key ∈ required, (Json.field? members key).isSome := by
  simp only [exactObject, bind_eq_ok, exists_unit, orThrow_eq_ok, throwIf_eq_ok, pure_eq_ok,
    not_or, not_exists, not_and, not_not] at h
  obtain ⟨found, hfound, ⟨-, hrequired⟩, rfl⟩ := h
  cases value with
  | object members =>
    obtain rfl := Option.some.inj hfound
    refine ⟨rfl, fun key hkey => ?_⟩
    obtain ⟨member, hmember, rfl⟩ := List.mem_map.mp (hrequired key hkey)
    rw [Json.field?, Option.isSome_map, List.find?_isSome]
    exact ⟨member, hmember, decide_eq_true rfl⟩
  | _ => cases hfound

theorem get?_object (members : Members) (key : String) :
    (Json.object members).get? key = Json.field? members key := rfl

theorem readLimits_eq_ok {value : Json} {limits : Limits} (h : readLimits value = .ok limits) :
    (value.get? "max_candidates").bind Json.asU64 = some limits.maxCandidates ∧
      (value.get? "result_bytes").bind Json.asU64 = some limits.resultBytes := by
  simp only [readLimits, bind_eq_ok, exists_unit, throwIf_eq_ok, pure_eq_ok] at h
  obtain ⟨members, hmembers, _, -, resultBytes, hresult, _, -, _, -, maxCandidates, hmax, -, rfl⟩ :=
    h
  obtain ⟨rfl, hfields⟩ := exactObject_eq_ok hmembers
  have hread : ∀ {field : String} {value : Option U64} (otherwise : U64),
      (Json.field? members field).isSome → optionalPositiveU64 members field = .ok value →
      (Json.field? members field).bind Json.asU64 = some (value.getD otherwise) := by
    intro field value otherwise hsome h
    obtain ⟨found, hfound⟩ := Option.isSome_iff_exists.mp hsome
    simp only [optionalPositiveU64, positiveU64, hfound, bind_eq_ok, exists_unit, orThrow_eq_ok,
      throwIf_eq_ok, pure_eq_ok, Option.bind_some] at h
    obtain ⟨read, ⟨_, hread, -, rfl⟩, rfl⟩ := h
    rw [hfound, Option.bind_some, hread, Option.getD_some]
  exact ⟨hread 100 (hfields _ (by decide)) hmax, hread 1048576 (hfields _ (by decide)) hresult⟩

theorem onlyElement_eq_ok {params : Members} {field message : String} {value : Json}
    (h : onlyElement params field message = .ok value) :
    Json.field? params field = some (.array [value]) := by
  simp only [onlyElement, array, bind_eq_ok, exists_unit, orThrow_eq_ok, throwIf_eq_ok, pure_eq_ok,
    not_not, Option.bind_eq_some_iff] at h
  obtain ⟨elements, ⟨found, hfound, helements⟩, hlength, rfl⟩ := h
  obtain ⟨element, rfl⟩ := List.length_eq_one_iff.mp hlength
  cases found with
  | array found =>
    obtain rfl := Option.some.inj helements
    exact hfound
  | _ => cases helements

theorem loopbackEndpoint_eq_ok {contract : Json} {endpoint : Option String}
    (h : loopbackEndpoint host contract = .ok endpoint) : contract.asObject.isSome := by
  obtain ⟨members, hmembers, -⟩ := bind_eq_ok.mp h
  rw [(exactObject_eq_ok hmembers).1]
  rfl

theorem readOpenRequest_eq_ok {providerRef params : Json} {request : OpenRequest}
    (h : readOpenRequest host providerRef params = .ok request) :
    params = .object request.params ∧
      Json.field? request.params "tools" =
        some (.array [request.grantedTool.reference host]) ∧
      (request.param "query_time_contract").asObject.isSome := by
  simp only [readOpenRequest, bind_eq_ok, exists_unit, throwIf_eq_ok, orThrow_eq_ok,
    pure_eq_ok] at h
  obtain ⟨members, hmembers, -, tool, htool, grantedTool, hgranted, _, -, -, _, -, -, _, -, -, _,
    hcontract, -, _, -, _, -, _, -, -, _, -, _, -, _, -, _, -, rfl⟩ := h
  obtain rfl := GrantedTool.fromRef_eq_some host hgranted
  exact ⟨(exactObject_eq_ok hmembers).1, onlyElement_eq_ok htool,
    loopbackEndpoint_eq_ok host hcontract⟩

theorem prepareSession_spec {env : Surroundings} {providerRef params : Json} {session : Session}
    (h : prepareSession host env providerRef params = .ok session) :
    GrantedBy host params session := by
  simp only [prepareSession, bind_eq_ok, exists_unit, throwIf_eq_ok, pure_eq_ok] at h
  obtain ⟨request, hrequest, lock, -, -, -, ⟨index, mappingPack⟩, -, -, queryVectorSet, -, limits,
    hlimits, -, rfl⟩ := h
  obtain ⟨rfl, htool, -⟩ := readOpenRequest_eq_ok host hrequest
  obtain ⟨hmax, hresult⟩ := readLimits_eq_ok hlimits
  exact ⟨htool, hmax, hresult⟩

/-! ### Preparing a session ends in an answer -/

/-- The manifest of the index that the request mounts can be decoded. -/
def OpenRequest.MountsDecodable (env : Surroundings) (request : OpenRequest) : Prop :=
  ∀ mount, mountAt env request.indexMount "index mount" = .ok mount →
    ∀ manifest ∈ (mount.indexDirectory host).manifest, manifest.Decodes

section Avoids

theorem new_ne_aborted {code message : String} : Fault.new code message ≠ .aborted := nofun

theorem exactObject_avoids_aborted (value : Json) (allowed required : List String)
    (label : String) : Avoids .aborted (exactObject value allowed required label) := by
  unfold exactObject
  refine avoids_bind (avoids_orThrow new_ne_aborted) fun members _ => ?_
  exact avoids_bind (avoids_throwIf new_ne_aborted) fun _ _ => avoids_pure _

theorem string_avoids_aborted (object : Members) (field label : String) :
    Avoids .aborted (string object field label) :=
  avoids_orThrow new_ne_aborted

theorem array_avoids_aborted (object : Members) (field label : String) :
    Avoids .aborted (array object field label) :=
  avoids_orThrow new_ne_aborted

theorem positiveU64_avoids_aborted (object : Members) (field label : String) :
    Avoids .aborted (positiveU64 object field label) := by
  unfold positiveU64
  refine avoids_bind (avoids_orThrow new_ne_aborted) fun value _ => ?_
  exact avoids_bind (avoids_throwIf new_ne_aborted) fun _ _ => avoids_pure _

theorem optionalPositiveU64_avoids_aborted (object : Members) (field : String) :
    Avoids .aborted (optionalPositiveU64 object field) := by
  unfold optionalPositiveU64
  split
  · exact avoids_pure _
  · exact avoids_bind (positiveU64_avoids_aborted _ _ _) fun _ _ => avoids_pure _

theorem validateComponent_avoids_aborted (value : Json) (label : String) :
    Avoids .aborted (validateComponent value label) := by
  unfold validateComponent
  refine avoids_bind (exactObject_avoids_aborted _ _ _ _) fun members _ => ?_
  iterate 2
    refine avoids_bind (string_avoids_aborted _ _ _) fun _ _ => ?_
    refine avoids_bind (avoids_throwIf new_ne_aborted) fun _ _ => ?_
  exact avoids_bind (string_avoids_aborted _ _ _) fun _ _ => avoids_throwIf new_ne_aborted

theorem readJsonMount_avoids_aborted (mount : Mount) (filename : String) :
    Avoids .aborted (readJsonMount host mount filename) :=
  avoids_bind (avoids_orThrow new_ne_aborted) fun _ _ => avoids_orThrow new_ne_aborted

theorem mountAt_avoids_aborted (env : Surroundings) (mount : Members) (label : String) :
    Avoids .aborted (mountAt env mount label) :=
  avoids_bind (string_avoids_aborted _ _ _) fun _ _ => avoids_pure _

theorem mountsByName_avoids_aborted (rows : List Json) (queryVectorSet : Bool) :
    Avoids .aborted (mountsByName rows queryVectorSet) := by
  unfold mountsByName
  refine avoids_bind (avoids_throwIf new_ne_aborted) fun _ _ => avoids_bind ?_ fun mounts _ => ?_
  · refine avoids_foldlM fun mounts row _ => ?_
    unfold addMount
    refine avoids_bind (exactObject_avoids_aborted _ _ _ _) fun mount _ => ?_
    iterate 2 refine avoids_bind (string_avoids_aborted _ _ _) fun _ _ => ?_
    refine avoids_bind (avoids_throwIf new_ne_aborted) fun _ _ => ?_
    refine avoids_bind (validateComponent_avoids_aborted _ _) fun _ _ => ?_
    refine avoids_bind (string_avoids_aborted _ _ _) fun _ _ => ?_
    exact avoids_bind (avoids_throwIf new_ne_aborted) fun _ _ => avoids_pure _
  · exact avoids_bind (avoids_throwIf new_ne_aborted) fun _ _ => avoids_pure _

theorem requiredMount_avoids_aborted (mounts : SortedMap String Members) (name role : String) :
    Avoids .aborted (requiredMount mounts name role) := by
  unfold requiredMount
  refine avoids_bind (avoids_orThrow new_ne_aborted) fun mount _ => ?_
  refine avoids_bind (string_avoids_aborted _ _ _) fun _ _ => ?_
  exact avoids_bind (avoids_throwIf new_ne_aborted) fun _ _ => avoids_pure _

theorem loopbackEndpoint_avoids_aborted (contract : Json) :
    Avoids .aborted (loopbackEndpoint host contract) := by
  unfold loopbackEndpoint
  refine avoids_bind (exactObject_avoids_aborted _ _ _ _) fun members _ => ?_
  refine avoids_bind (avoids_throwIf new_ne_aborted) fun _ _ => ?_
  refine avoids_bind (string_avoids_aborted _ _ _) fun mode _ => ?_
  refine avoids_bind (array_avoids_aborted _ _ _) fun network _ => ?_
  split
  · exact avoids_pure _
  · refine avoids_bind (avoids_throwIf new_ne_aborted) fun _ _ => ?_
    iterate 2 refine avoids_bind (avoids_orThrow new_ne_aborted) fun _ _ => ?_
    exact avoids_pure _

theorem onlyElement_avoids_aborted (params : Members) (field message : String) :
    Avoids .aborted (onlyElement params field message) := by
  unfold onlyElement
  refine avoids_bind (array_avoids_aborted _ _ _) fun elements _ => ?_
  exact avoids_bind (avoids_throwIf new_ne_aborted) fun _ _ => avoids_pure _

theorem readOpenRequest_avoids_aborted (providerRef params : Json) :
    Avoids .aborted (readOpenRequest host providerRef params) := by
  unfold readOpenRequest
  refine avoids_bind (exactObject_avoids_aborted _ _ _ _) fun members _ => ?_
  refine avoids_bind (avoids_throwIf new_ne_aborted) fun _ _ => ?_
  refine avoids_bind (onlyElement_avoids_aborted _ _ _) fun tool _ => ?_
  refine avoids_bind (avoids_orThrow new_ne_aborted) fun grantedTool _ => ?_
  iterate 2
    refine avoids_bind (onlyElement_avoids_aborted _ _ _) fun _ _ => ?_
    refine avoids_bind (validateComponent_avoids_aborted _ _) fun _ _ => ?_
  refine avoids_bind (string_avoids_aborted _ _ _) fun _ _ => ?_
  refine avoids_bind (avoids_throwIf new_ne_aborted) fun _ _ => ?_
  refine avoids_bind (loopbackEndpoint_avoids_aborted host _) fun endpoint _ => ?_
  refine avoids_bind (avoids_throwIf new_ne_aborted) fun _ _ => ?_
  refine avoids_bind (array_avoids_aborted _ _ _) fun rows _ => ?_
  refine avoids_bind (mountsByName_avoids_aborted _ _) fun mounts _ => ?_
  refine avoids_bind (requiredMount_avoids_aborted _ _ _) fun _ _ => ?_
  refine avoids_bind (avoids_throwIf new_ne_aborted) fun _ _ => ?_
  iterate 3 refine avoids_bind (requiredMount_avoids_aborted _ _ _) fun _ _ => ?_
  refine avoids_bind ?_ fun _ _ => avoids_pure _
  split
  · exact avoids_bind (requiredMount_avoids_aborted _ _ _) fun _ _ => avoids_pure _
  · exact avoids_pure _

theorem readLock_avoids_aborted (env : Surroundings) (providerRef : Json)
    (request : OpenRequest) : Avoids .aborted (readLock host env providerRef request) := by
  unfold readLock
  refine avoids_bind (mountAt_avoids_aborted _ _ _) fun mount _ => ?_
  refine avoids_bind (readJsonMount_avoids_aborted host _ _) fun lock _ => ?_
  refine avoids_bind (avoids_throwIf new_ne_aborted) fun _ _ => ?_
  refine avoids_bind (avoids_orThrow new_ne_aborted) fun members _ => ?_
  exact avoids_bind (avoids_throwIf new_ne_aborted) fun _ _ => avoids_pure _

/-- A lock names a known format. -/
theorem readLock_eq_ok {env : Surroundings} {providerRef lock : Json} {request : OpenRequest}
    (h : readLock host env providerRef request = .ok lock) :
    (manifestSchemaForFormat host (lock.member "index_format")).isSome := by
  simp only [readLock, bind_eq_ok, exists_unit, throwIf_eq_ok, orThrow_eq_ok, pure_eq_ok,
    not_or] at h
  obtain ⟨_, -, _, -, -, _, -, ⟨-, -, -, -, -, -, -, hformat, -⟩, rfl⟩ := h
  exact Option.isSome_iff_ne_none.mpr hformat

theorem checkExecutable_avoids_aborted (env : Surroundings) (lock : Json) :
    Avoids .aborted (checkExecutable host env lock) := by
  unfold checkExecutable
  iterate 2 refine avoids_bind (avoids_orThrow new_ne_aborted) fun _ _ => ?_
  exact avoids_throwIf new_ne_aborted

theorem checkReceipt_avoids_aborted (env : Surroundings) (request : OpenRequest) (lock : Json) :
    Avoids .aborted (checkReceipt host env request lock) := by
  unfold checkReceipt
  refine avoids_bind (mountAt_avoids_aborted _ _ _) fun mount _ => ?_
  refine avoids_bind (readJsonMount_avoids_aborted host _ _) fun receipt _ => ?_
  exact avoids_throwIf new_ne_aborted

theorem verifySdkIndexWrapper_avoids_aborted (mount : Mount) (indexRef : Json) :
    Avoids .aborted (verifySdkIndexWrapper host mount indexRef) := by
  unfold verifySdkIndexWrapper
  refine avoids_bind (readJsonMount_avoids_aborted host _ _) fun wrapper _ => ?_
  refine avoids_bind (avoids_throwIf new_ne_aborted) fun _ _ => ?_
  refine avoids_bind (avoids_orThrow new_ne_aborted) fun objects _ => ?_
  refine avoids_bind (avoids_forM fun object _ => ?_) fun _ _ => ?_
  · unfold verifyWrapperObject
    refine avoids_bind (avoids_orThrow new_ne_aborted) fun relative _ => ?_
    refine avoids_bind (avoids_throwIf new_ne_aborted) fun _ _ => ?_
    refine avoids_bind (avoids_orThrow new_ne_aborted) fun content _ => ?_
    exact avoids_throwIf new_ne_aborted
  · exact avoids_bind (avoids_throwIf new_ne_aborted) fun _ _ => avoids_pure _

theorem openMountedIndex_avoids_aborted {mount : Mount}
    (h : ∀ manifest ∈ (mount.indexDirectory host).manifest, manifest.Decodes) :
    Avoids .aborted (openMountedIndex host mount) := by
  have hopen := OpenFastIndex.open_avoids_aborted host.prims host.readers h
  unfold openMountedIndex
  split
  · exact avoids_ok _
  · next heq => exact absurd heq hopen
  · exact avoids_error new_ne_aborted

theorem bindIndex_avoids_aborted {env : Surroundings} {providerRef params lock : Json}
    {request : OpenRequest} (hrequest : readOpenRequest host providerRef params = .ok request)
    (hlock : readLock host env providerRef request = .ok lock)
    (h : request.MountsDecodable host env) : Avoids .aborted (bindIndex host env request lock) := by
  obtain ⟨schema, hschema⟩ := Option.isSome_iff_exists.mp (readLock_eq_ok host hlock)
  have hcontract : (expectedQueryContract request).isSome := by
    unfold expectedQueryContract
    rw [Option.isSome_map]
    exact (readOpenRequest_eq_ok host hrequest).2.2
  obtain ⟨expected, hexpected⟩ := Option.isSome_iff_exists.mp hcontract
  unfold bindIndex
  refine avoids_bind (mountAt_avoids_aborted _ _ _) fun mount hmount => ?_
  refine avoids_bind (verifySdkIndexWrapper_avoids_aborted host _ _) fun sdkIndex _ => ?_
  rw [hexpected, hschema]
  refine avoids_bind (avoids_ok _) fun _ _ => ?_
  refine avoids_bind (avoids_throwIf new_ne_aborted) fun _ _ => ?_
  refine avoids_bind (readJsonMount_avoids_aborted host _ _) fun physicalManifest _ => ?_
  refine avoids_bind (avoids_throwIf new_ne_aborted) fun _ _ => ?_
  refine avoids_bind (avoids_ok _) fun _ _ => ?_
  refine avoids_bind (avoids_throwIf new_ne_aborted) fun _ _ => ?_
  refine avoids_bind (openMountedIndex_avoids_aborted host (h mount hmount)) fun index _ => ?_
  refine avoids_bind (avoids_orThrow new_ne_aborted) fun mappingPack _ => ?_
  refine avoids_bind (validateComponent_avoids_aborted _ _) fun _ _ => ?_
  refine avoids_bind (avoids_throwIf new_ne_aborted) fun _ _ => ?_
  refine avoids_bind (avoids_orThrowAs new_ne_aborted) fun _ _ => ?_
  exact avoids_bind (avoids_throwIf new_ne_aborted) fun _ _ => avoids_pure _

theorem bindEmbeddingProfile_avoids_aborted (env : Surroundings) (request : OpenRequest)
    (index : OpenFastIndex) : Avoids .aborted (bindEmbeddingProfile host env request index) := by
  unfold bindEmbeddingProfile
  refine avoids_bind (mountAt_avoids_aborted _ _ _) fun mount _ => ?_
  refine avoids_bind (avoids_orThrow new_ne_aborted) fun bytes _ => ?_
  exact avoids_throwIf new_ne_aborted

theorem openSealedSet_avoids_aborted (files : Pipeline.QueryVectorFiles)
    (expectedProfile : Pipeline.ComponentRef) (profile : Embedding.EmbeddingProfile) :
    Avoids .aborted (openSealedSet host files expectedProfile profile) := by
  have hread : ∀ bytes, Avoids .aborted
      (orThrow (host.readQueryVectorManifest bytes) (Pipeline.PipelineError.json "manifest")) :=
    fun bytes => avoids_orThrow nofun
  have hopen := Pipeline.SealedQueryVectorSet.open_avoids_aborted host.prims host.unitNorm hread
    files expectedProfile profile.model profile.dimensions profile.normalization none
  unfold openSealedSet
  split
  · exact avoids_ok _
  · next heq => exact absurd heq hopen
  · exact avoids_error new_ne_aborted

theorem bindQueryVectors_avoids_aborted (env : Surroundings) (request : OpenRequest)
    (index : OpenFastIndex) : Avoids .aborted (bindQueryVectors host env request index) := by
  unfold bindQueryVectors
  cases request.queryVectorMount with
  | none => exact avoids_pure _
  | some members =>
    refine avoids_bind (avoids_bind (mountAt_avoids_aborted _ _ _) fun mount _ => ?_) fun _ _ =>
      avoids_pure _
    unfold openBoundQueryVectorSet
    refine avoids_bind (avoids_throwIf new_ne_aborted) fun _ _ => ?_
    iterate 2 refine avoids_bind (avoids_orThrow new_ne_aborted) fun _ _ => ?_
    refine avoids_bind (openSealedSet_avoids_aborted host _ _ _) fun sealedSet _ => ?_
    exact avoids_bind (avoids_throwIf new_ne_aborted) fun _ _ => avoids_pure _

theorem readLimits_avoids_aborted (value : Json) : Avoids .aborted (readLimits value) := by
  unfold readLimits
  refine avoids_bind (exactObject_avoids_aborted _ _ _ _) fun limits _ => ?_
  iterate 5 refine avoids_bind (optionalPositiveU64_avoids_aborted _ _) fun _ _ => ?_
  exact avoids_bind (avoids_throwIf new_ne_aborted) fun _ _ => avoids_pure _

/-- **Preparing a session ends in an answer** when the mounted manifest can be decoded. -/
theorem prepareSession_avoids_aborted {env : Surroundings} {providerRef params : Json}
    (h : ∀ request, readOpenRequest host providerRef params = .ok request →
      request.MountsDecodable host env) :
    Avoids .aborted (prepareSession host env providerRef params) := by
  unfold prepareSession
  refine avoids_bind (readOpenRequest_avoids_aborted host _ _) fun request hrequest => ?_
  refine avoids_bind (readLock_avoids_aborted host _ _ _) fun lock hlock => ?_
  refine avoids_bind (checkExecutable_avoids_aborted host _ _) fun _ _ => ?_
  refine avoids_bind (checkReceipt_avoids_aborted host _ _ _) fun _ _ => ?_
  refine avoids_bind (bindIndex_avoids_aborted host hrequest hlock (h request hrequest))
    fun bound _ => ?_
  refine avoids_bind (bindEmbeddingProfile_avoids_aborted host _ _ _) fun _ _ => ?_
  refine avoids_bind (bindQueryVectors_avoids_aborted host _ _ _) fun queryVectorSet _ => ?_
  refine avoids_bind (readLimits_avoids_aborted _) fun limits _ => ?_
  exact avoids_bind (avoids_throwIf new_ne_aborted) fun _ _ => avoids_pure _

end Avoids

end Opening

end LivefireRag.ToolProvider
