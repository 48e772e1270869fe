import LivefireRag.Lib.JsonAccess
import LivefireRag.Embedding.Query
import LivefireRag.Index.Search
import LivefireRag.Pipeline.SealedVectors

/-!
# The provider's requests

What the provider takes from outside, how it reads the fields of a request, and the
identities it is packaged with. A request ends in an answer, in an error that is sent
back, or in the end of the process (`Fault.aborted`).
-/

namespace LivefireRag.ToolProvider

open Machine Fallible Index

def protocol := "livefire.tool/1"
def providerId := "com.ayc.livefire-rag.fast-evidence-provider"
def toolId := "com.ayc.livefire-rag.fast-evidence.search"
def similarToolId := "com.ayc.livefire-rag.fast-evidence.similar"
def formatId := "com.ayc.livefire-rag.fast-index-format"
def version := "0.2.0"
def similarToolVersion := "0.1.0"
def formatVersionV3 := "0.3.0"
def queryVectorSetComponentId := "com.ayc.livefire-rag.query-vector-set"
def queryVectorSetComponentVersion := "1"

/-! ### Errors -/

structure ProviderError where
  code : String
  message : String
  retryable : Bool
  deriving DecidableEq

/-- A request that is not answered. -/
inductive Fault where
  | refused (error : ProviderError)
  /-- The process ends by a panic, and nothing is sent back. -/
  | aborted
  deriving DecidableEq

abbrev Result := Except Fault

def Fault.new (code message : String) : Fault := .refused ⟨code, message, false⟩

def Fault.retry (code message : String) : Fault := .refused ⟨code, message, true⟩

/-! ### The outside -/

/-- What the provider takes from other crates: the primitives of the pipeline, the
serialiser, the readers of the file formats, the arithmetic of scores and floats, and the
files that are compiled in, by name. -/
structure Host (Score : Type) where
  prims : Pipeline.Primitives
  encode : Json → List UInt8
  parse : String → Option Json
  readers : FileReaders
  scoring : Scoring Score
  scoreJson : Score → Json
  unitNorm : List F32 → Bool
  normalizePrefix : List F32 → Option (List F32)
  readIndexManifest : List UInt8 → Option FastIndexManifest
  readQueryVectorManifest : List UInt8 → Option Pipeline.QueryVectorSetManifest
  readComponentRef : Json → Option Pipeline.ComponentRef
  normalizeLoopbackHttpEndpoint : String → Option String
  embedded : String → Json

/-- What is mounted at a path: a file, or a directory of files. `contained` says which
relative paths stay inside the directory. -/
structure Mount where
  isDirectory : Bool
  content : Option (List UInt8)
  files : String → Option (List UInt8)
  contained : String → Bool

/-- How a call of the embedding service ends. -/
inductive EmbeddingReply where
  | invalidClient
  | timedOut
  | failed
  | answered (returnedModel : String) (vectors : List (List F32))

/-- What the provider finds while it handles one request: the clock each time it is read,
the mounts, its own executable, and the replies of the embedding service to an endpoint,
a model, a time limit and a text. -/
structure Surroundings where
  handledAt : U64
  calledAt : U64
  answeredAt : U64
  elapsedNanos : ℕ
  mounts : String → Mount
  runningExecutable : Option (List UInt8)
  embed : String → String → ℕ → String → EmbeddingReply

/-! ### Reading fields -/

def exactObject (value : Json) (allowed required : List String) (label : String) :
    Result (List (String × Json)) := do
  let members ← orThrow value.asObject (.new "invalid_request" (label ++ " must be an object"))
  throwIf ((∃ key ∈ members.map Prod.fst, key ∉ allowed) ∨
      ∃ key ∈ required, key ∉ members.map Prod.fst)
    (.new "invalid_request" (label ++ " has unknown or missing fields"))
  return members

def string (object : List (String × Json)) (field label : String) : Result String :=
  orThrow ((Json.field? object field).bind Json.asStr)
    (.new "invalid_request" (label ++ "." ++ field ++ " must be a string"))

def array (object : List (String × Json)) (field label : String) : Result (List Json) :=
  orThrow ((Json.field? object field).bind Json.asArray)
    (.new "invalid_request" (label ++ "." ++ field ++ " must be an array"))

def positiveU64 (object : List (String × Json)) (field label : String) : Result U64 := do
  let value ← orThrow ((Json.field? object field).bind Json.asU64)
    (.new "invalid_request" (label ++ "." ++ field ++ " must be a positive integer"))
  throwIf (value = 0) (.new "invalid_request" (label ++ "." ++ field ++ " must be positive"))
  return value

/-- A size has 64 bits. -/
def positiveUsize (object : List (String × Json)) (field label : String) : Result U64 :=
  positiveU64 object field label

def optionalPositiveU64 (object : List (String × Json)) (field : String) : Result (Option U64) :=
  match Json.field? object field with
  | none => return none
  | some _ => do
    let value ← positiveU64 object field "limits"
    return some value

def optionalPositiveUsize (object : List (String × Json)) (field : String) :
    Result (Option U64) :=
  optionalPositiveU64 object field

def optionalU64 (object : List (String × Json)) (field : String) : Result (Option U64) :=
  match Json.field? object field with
  | none => return none
  | some value => do
    let value ← orThrow value.asU64
      (.new "invalid_request" (field ++ " must be an unsigned integer"))
    return some value

def validateSha256 (value label : String) : Result Unit :=
  throwIf (¬ Pipeline.IsDigest value)
    (.new "invalid_binding" (label ++ " is not a canonical SHA-256"))

def validateComponent (value : Json) (label : String) : Result Unit := do
  let component ← exactObject value ["id", "version", "sha256", "uri"] ["id", "version", "sha256"]
    label
  let id ← string component "id" label
  throwIf (id = "") (.new "invalid_binding" (label ++ " identity is empty"))
  let version ← string component "version" label
  throwIf (version = "") (.new "invalid_binding" (label ++ " identity is empty"))
  let sha256 ← string component "sha256" label
  validateSha256 sha256 label

/-! ### Packaged identities -/

section Identity

variable {Score : Type} (host : Host Score)

def canonicalSha256 (value : Json) : String := (Pipeline.canonicalDigest host.prims value).val

def component (id version sha256 : String) : Json :=
  .mkObject [("id", .string id), ("version", .string version), ("sha256", .string sha256)]

/-- An embedded schema is identified by its `$id`. -/
def schemaRef (file : String) : Json :=
  let value := host.embedded file
  component ((value.member "$id").asStr.getD "") "1" (canonicalSha256 host value)

def searchInputSchemaRef : Json := schemaRef host "fast-evidence-search.input.v1.schema.json"
def similarInputSchemaRef : Json := schemaRef host "fast-evidence-similar.input.v1.schema.json"
def searchOutputSchemaRef : Json := schemaRef host "fast-evidence-search.output.v1.schema.json"
def similarOutputSchemaRef : Json := schemaRef host "fast-evidence-similar.output.v1.schema.json"
def hydrationRefSchemaRef : Json := schemaRef host "ocsf-hydration-ref.v1.schema.json"

def profileRefVersion (id version file : String) : Json :=
  component id version (canonicalSha256 host (host.embedded file))

def profileRef (id file : String) : Json := profileRefVersion host id "1" file

def texts (values : List String) : Json := .array (values.map Json.string)

def physicalProfile : Json := .mkObject
  [("schema_version", .string "livefire.rag.fast-index-physical-profile/1"),
    ("manifest", .string "livefire.rag.fast-index/2"),
    ("document_order", .string "document_id_asc"), ("vector_dtype", .string "f32le"),
    ("vector_header_bytes", .number (.posInt 64)),
    ("lexical_tokenizer", .string "ascii_camel_lower_v1"),
    ("pointer_table", .string "sqlite-occurrence-lookup-v1")]

def physicalProfileRef : Json :=
  component "com.ayc.livefire-rag.fast-index-physical-profile" "1"
    (canonicalSha256 host physicalProfile)

def physicalProfileV3 : Json := .mkObject
  [("schema_version", .string "livefire.rag.fast-index-physical-profile/2"),
    ("manifest", .string "livefire.rag.fast-index/3"),
    ("document_order", .string "document_id_asc"), ("vector_dtype", .string "f32le"),
    ("vector_header_bytes", .number (.posInt 64)),
    ("lexical_tokenizer", .string "ascii_camel_lower_v1"),
    ("lexical_storage", .string "sqlite-inverted-bm25-v1"),
    ("pointer_table", .string "sqlite-occurrence-lookup-v1")]

def physicalProfileRefV3 : Json :=
  component "com.ayc.livefire-rag.fast-index-physical-profile" "2"
    (canonicalSha256 host physicalProfileV3)

def validatorProfile : Json := .mkObject
  [("schema_version", .string "livefire.rag.fast-index-validator/1"),
    ("checks", texts ["component_identity", "object_digests", "vector_header", "document_order",
      "occurrence_closure", "source_binding"]),
    ("candidate_handoff", .string "authoritative_ocsf_hydration_required")]

def validatorRef : Json :=
  component "com.ayc.livefire-rag.fast-index-validator" "1" (canonicalSha256 host validatorProfile)

/-- The floats `1.2` and `0.75` stand as their bits. -/
def retrievalPolicy : Json := .mkObject
  [("schema_version", .string "livefire.rag.fast-retrieval-policy/1"),
    ("dense", .string "cosine"),
    ("lexical", .mkObject [("algorithm", .string "bm25"),
      ("k1", .number (.float 0x3FF3333333333333)), ("b", .number (.float 0x3FE8000000000000))]),
    ("fusion", .mkObject [("algorithm", .string "reciprocal_rank"),
      ("rank_constant", .number (.posInt 60))]),
    ("tie_break", .string "score_desc_document_id_asc"),
    ("max_candidates", .number (.posInt 100)),
    ("result_semantics", .string "candidate_pointer_not_evidence")]

def retrievalPolicyRef : Json :=
  component "com.ayc.livefire-rag.fast-retrieval-policy" "1" (canonicalSha256 host retrievalPolicy)

def similarityPolicy : Json := .mkObject
  [("schema_version", .string "livefire.rag.fast-similarity-policy/1"),
    ("seed_lookup", .string "exact_document_id"), ("seed_vector", .string "stored_index_vector"),
    ("distance", .string "cosine"), ("default_exclude_seed", .bool true),
    ("tie_break", .string "score_desc_document_id_asc"),
    ("max_candidates", .number (.posInt 100)),
    ("result_semantics", .string "candidate_pointer_not_evidence")]

def similarityPolicyRef : Json :=
  component "com.ayc.livefire-rag.fast-similarity-policy" "1"
    (canonicalSha256 host similarityPolicy)

/-- The reference of a description that carries it: its digest is that of the description
without the digest. -/
def selfRef (field id version : String) (rest : List (String × Json)) : Json :=
  let bare : Json := .mkObject [("id", .string id), ("version", .string version)]
  component id version (canonicalSha256 host (.mkObject ((field, bare) :: rest)))

/-- The description of a tool, but for the reference it carries. -/
def toolFields (name description : String) (inputSchema outputSchema : Json) :
    List (String × Json) :=
  [("schema_version", .string "livefire.tool-descriptor/1"), ("name", .string name),
    ("description", .string description), ("input_schema", inputSchema),
    ("output_schema", outputSchema), ("result_semantics", .string "candidate_pointer"),
    ("evidence_policy", .string "pointer_only"),
    ("required_indexes", .array [.mkObject [("format_id", .string formatId),
      ("accepted_versions", texts [version, formatVersionV3])]]),
    ("limits", .mkObject [("request_bytes", .number (.posInt 65536)),
      ("result_bytes", .number (.posInt 1048576)), ("wall_time_ms", .number (.posInt 30000)),
      ("max_candidates", .number (.posInt 100))]),
    ("determinism", .string "ranked_deterministic")]

def searchToolRef : Json :=
  selfRef host "tool" toolId version (toolFields "evidence.search"
    ("Rank generic OCSF evidence candidates and return hydration-only references; " ++
      "every candidate requires authoritative OCSF hydration and verification.")
    (searchInputSchemaRef host) (searchOutputSchemaRef host))

def similarToolRef : Json :=
  selfRef host "tool" similarToolId similarToolVersion (toolFields "evidence.similar"
    ("Rank generic OCSF evidence candidates by similarity to one indexed document and return " ++
      "hydration-only references. No model call is made.")
    (similarInputSchemaRef host) (similarOutputSchemaRef host))

/-- The description of an index format, but for the reference it carries. -/
def formatFields (formatVersion manifestFile lexicalMedia : String)
    (lexicalProfile physicalProfile : Json) : List (String × Json) :=
  let object (role media : String) (schema : Json) : Json := .mkObject
    [("role", .string role), ("required", .bool true), ("media_type", .string media),
      ("row_schema", schema)]
  let parquet := "application/vnd.apache.parquet"
  [("schema_version", .string "livefire.index-format-descriptor/1"),
    ("compatibility", .mkObject [("rule", .string "exact_format_id_and_listed_version"),
      ("accepted_versions", texts [formatVersion])]),
    ("objects", .array [
      object "fast_manifest" "application/json" (schemaRef host manifestFile),
      object "documents" parquet (schemaRef host "fast-document-row.v1.schema.json"),
      object "occurrences" parquet (schemaRef host "fast-occurrence-row.v1.schema.json"),
      object "vectors" "application/octet-stream"
        (profileRef host "com.ayc.livefire-rag.fast-vector-binary-profile"
          "fast-vector-binary-profile.v1.json"),
      object "lexical" lexicalMedia lexicalProfile,
      object "occurrence_lookup" "application/vnd.sqlite3"
        (profileRef host "com.ayc.livefire-rag.fast-occurrence-lookup-profile"
          "fast-occurrence-lookup-profile.v1.json"),
      object "build_report" "application/json"
        (schemaRef host "fast-build-report.v1.schema.json")]),
    ("pointer_table", .mkObject [("required", .bool true),
      ("schema", hydrationRefSchemaRef host)]),
    ("physical_profile", physicalProfile), ("validator", validatorRef host)]

def formatRef : Json :=
  selfRef host "format" formatId version (formatFields host version
    "fast-index-manifest.v2.schema.json" "application/json"
    (profileRef host "com.ayc.livefire-rag.fast-lexical-profile" "fast-lexical-profile.v1.json")
    (physicalProfileRef host))

def formatRefV3 : Json :=
  selfRef host "format" formatId formatVersionV3 (formatFields host formatVersionV3
    "fast-index-manifest.v3.schema.json" "application/vnd.sqlite3"
    (profileRefVersion host "com.ayc.livefire-rag.fast-lexical-profile" "2"
      "fast-lexical-profile.v2.json")
    (physicalProfileRefV3 host))

def manifestSchemaForFormat (format : Json) : Option String :=
  if format == formatRef host then some "livefire.rag.fast-index/2"
  else if format == formatRefV3 host then some "livefire.rag.fast-index/3"
  else none

/-- References are compared exactly. -/
theorem beq_component {value : Json} {id version sha256 : String} :
    value == component id version sha256 ↔ value = component id version sha256 := by
  obtain ⟨members, hmembers⟩ : ∃ members, component id version sha256 = .object members := ⟨_, rfl⟩
  rw [hmembers]
  refine Json.beq_object_of_strings fun m hm => ?_
  have hfield := Json.mem_of_mem_mkObject hmembers hm
  simp only [List.mem_cons, List.not_mem_nil, or_false] at hfield
  obtain rfl | rfl | rfl := hfield <;> exact ⟨_, rfl⟩

inductive GrantedTool where
  | search
  | similar
  deriving DecidableEq

def GrantedTool.fromRef (value : Json) : Option GrantedTool :=
  if value == searchToolRef host then some .search
  else if value == similarToolRef host then some .similar
  else none

def GrantedTool.reference : GrantedTool → Json
  | .search => searchToolRef host
  | .similar => similarToolRef host

theorem GrantedTool.beq_reference {value : Json} {tool : GrantedTool} :
    value == tool.reference host ↔ value = tool.reference host := by
  cases tool <;> exact beq_component

theorem GrantedTool.fromRef_eq_some {value : Json} {tool : GrantedTool}
    (h : GrantedTool.fromRef host value = some tool) : value = tool.reference host := by
  unfold GrantedTool.fromRef at h
  split_ifs at h with hsearch hsimilar
  · obtain rfl := Option.some.inj h
    exact beq_component.mp hsearch
  · obtain rfl := Option.some.inj h
    exact beq_component.mp hsimilar

def GrantedTool.inputSchema : GrantedTool → Json
  | .search => searchInputSchemaRef host
  | .similar => similarInputSchemaRef host

def GrantedTool.outputSchema : GrantedTool → Json
  | .search => searchOutputSchemaRef host
  | .similar => similarOutputSchemaRef host

def GrantedTool.retrievalPolicy : GrantedTool → Json
  | .search => retrievalPolicyRef host
  | .similar => similarityPolicyRef host

end Identity

end LivefireRag.ToolProvider
