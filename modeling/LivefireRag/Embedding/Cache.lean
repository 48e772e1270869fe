import LivefireRag.Lib.Memo
import LivefireRag.Lib.Text
import LivefireRag.Embedding.Profile
import LivefireRag.Embedding.Shard
import LivefireRag.Pipeline.PlanTiling

/-!
# The embedding cache

Vectors are kept in a table under a key made from the profile and the input. A run looks
all of its inputs up, embeds those that are missing batch by batch, and writes each batch,
once all of its vectors have passed their check, in one transaction. A run can fail at any
look-up, reply, check or transaction, and it can be cut off.

The table only ever receives whole checked batches, so what a run leaves is the table
before with the batches up to some point (`CacheRun.leaves_prefix`). A table reached by
such runs is faithful: it holds under every key the vector of an input with that key. The
key of an input determines its text (`text_of_cacheKey`), so a later run that succeeds
returns for each input the vector of its own text, wherever it found it
(`embedResumable_resumes`).
-/

namespace LivefireRag.Embedding

open Fallible Machine Chunks Crash Memo

structure EmbeddingInput where
  documentId : String
  documentSha256 : String
  text : String
  deriving DecidableEq

structure EmbeddedDocument where
  documentId : String
  vector : List F32
  fromCache : Bool
  deriving DecidableEq

structure EmbeddingCacheStats where
  cacheHits : ℕ
  embedded : ℕ
  deriving DecidableEq

/-- A row of the table. -/
structure CachedVector where
  dimensions : ℕ
  vector : List UInt8
  deriving DecidableEq

abbrev CacheTable := SortedMap String CachedVector

abbrev CacheProgram (α : Type) := Program CacheTable EmbeddingError α

/-- What a run meets outside: the reply of the embedder to the texts of its `n`-th batch,
and the errors of the database at the look-up of the `n`-th input and at the `n`-th
transaction. -/
structure Environment where
  embed : ℕ → List String → Except EmbeddingError (List (List F32))
  lookUpError : ℕ → Option EmbeddingError
  commitError : ℕ → Option EmbeddingError

def failWith : Option EmbeddingError → Except EmbeddingError Unit
  | none => .ok ()
  | some error => .error error

/-! ### Keys -/

section Model

variable (prims : Pipeline.Primitives) (writeProfile : EmbeddingProfile → List UInt8)
  (unitNorm : List F32 → Bool)

/-- What is hashed into the key: four values, each ended by a zero byte, and the JSON text
of the profile. -/
def cacheKeyMaterial (profile : EmbeddingProfile) (input : EmbeddingInput) : List UInt8 :=
  Text.utf8 profile.sha256 ++ [0] ++ Text.utf8 input.documentId ++ [0] ++
    Text.utf8 input.documentSha256 ++ [0] ++
    (Text.utf8 (prims.sha256 (Text.utf8 input.text)).val ++ ([0] ++ writeProfile profile ++ [0]))

def cacheKey (profile : EmbeddingProfile) (input : EmbeddingInput) : String :=
  (prims.sha256 (cacheKeyMaterial prims writeProfile profile input)).val

/-! ### The table -/

def EmbeddingCache.get (table : CacheTable) (key : String) (dimensions : ℕ) :
    Except EmbeddingError (Option (List F32)) :=
  match table.get? key with
  | none => return none
  | some row => do
    throwIf (row.dimensions ≠ dimensions ∨ row.vector.length ≠ dimensions * 4)
      (.invalid "cached vector shape")
    return some (decodeVector row.vector)

/-- A vector as a row. -/
def storedVector (vector : List F32) : CachedVector := ⟨vector.length, vectorBytes vector⟩

def EmbeddingCache.putBatch (table : CacheTable) (rows : List (String × List F32)) : CacheTable :=
  rows.foldl (fun table row => table.insert row.1 (storedVector row.2)) table

/-! ### Runs -/

/-- The vector of an input that is in the table, checked. -/
def lookUp (environment : Environment) (profile : EmbeddingProfile) (table : CacheTable)
    (input : EmbeddingInput) (ordinal : ℕ) : Except EmbeddingError (Option (List F32)) := do
  failWith (environment.lookUpError ordinal)
  match ← EmbeddingCache.get table (cacheKey prims writeProfile profile input)
      profile.dimensions with
  | none => return none
  | some vector =>
    validateVector unitNorm vector profile.dimensions profile.normalization
    return some vector

/-- The look-ups of all inputs. -/
def scan (environment : Environment) (profile : EmbeddingProfile) (table : CacheTable)
    (inputs : List EmbeddingInput) : Except EmbeddingError (List (Option (List F32))) :=
  inputs.zipIdx.mapM fun (input, ordinal) =>
    lookUp prims writeProfile unitNorm environment profile table input ordinal

/-- The inputs that were not found, with their ordinals. -/
def missingOf (inputs : List EmbeddingInput) (found : List (Option (List F32))) :
    List (ℕ × EmbeddingInput) :=
  (inputs.zip found).zipIdx.filterMap fun ((input, vector), ordinal) =>
    if vector.isNone then some (ordinal, input) else none

/-- One batch: its vectors are requested, all checked, and written in one transaction. -/
def embedBatch (environment : Environment) (profile : EmbeddingProfile) (n : ℕ)
    (batch : List (ℕ × EmbeddingInput)) : CacheProgram (List (List F32)) := do
  let vectors ← .done (environment.embed n (batch.map fun missing => missing.2.text))
  if vectors.length ≠ batch.length then
    .throw (.invalid "batch cardinality")
  else
    .done (forM vectors fun vector =>
      validateVector unitNorm vector profile.dimensions profile.normalization)
    .done (failWith (environment.commitError n))
    .modify fun table => EmbeddingCache.putBatch table
      ((batch.map fun missing => cacheKey prims writeProfile profile missing.2).zip vectors)
    return vectors

/-- The batches from the `n`-th on, and their vectors. -/
def embedBatches (environment : Environment) (profile : EmbeddingProfile) :
    ℕ → List (List (ℕ × EmbeddingInput)) → CacheProgram (List (List (List F32)))
  | _, [] => return []
  | n, batch :: batches => do
    let vectors ← embedBatch prims writeProfile unitNorm environment profile n batch
    let rest ← embedBatches environment profile (n + 1) batches
    return vectors :: rest

def ensureCached (environment : Environment) (profile : EmbeddingProfile)
    (inputs : List EmbeddingInput) (batchSize : ℕ) : CacheProgram EmbeddingCacheStats := do
  .done (throwIf (batchSize = 0 ∨ 32 < batchSize) (.invalid "batch size"))
  .done (validateEmbeddingProfile profile)
  let table ← .get
  let found ← .done (scan prims writeProfile unitNorm environment profile table inputs)
  let missing := missingOf inputs found
  let _ ← embedBatches prims writeProfile unitNorm environment profile 0 (chunks batchSize missing)
  return ⟨found.countP Option.isSome, missing.length⟩

/-- The output with the vectors of a batch at the ordinals of the batch. -/
def scatter (output : List (Option EmbeddedDocument)) (batch : List (ℕ × EmbeddingInput))
    (vectors : List (List F32)) : List (Option EmbeddedDocument) :=
  (batch.zip vectors).foldl (fun output row =>
    output.set row.1.1 (some ⟨row.1.2.documentId, row.2, false⟩)) output

/-- The output is read only at the end, so the batches may be scattered after the last. -/
def embedResumable (environment : Environment) (profile : EmbeddingProfile)
    (inputs : List EmbeddingInput) (batchSize : ℕ) : CacheProgram (List EmbeddedDocument) := do
  .done (throwIf (batchSize = 0 ∨ 32 < batchSize) (.invalid "batch size"))
  let table ← .get
  let found ← .done (scan prims writeProfile unitNorm environment profile table inputs)
  let output := (inputs.zip found).map fun (input, vector) =>
    vector.map fun vector => EmbeddedDocument.mk input.documentId vector true
  let batches := chunks batchSize (missingOf inputs found)
  let vectors ← embedBatches prims writeProfile unitNorm environment profile 0 batches
  let output := (batches.zip vectors).foldl (fun output batch => scatter output batch.1 batch.2)
    output
  .done (output.mapM fun document => orThrow document (.invalid "missing vector"))

end Model

/-! ### What a run writes -/

section Runs

variable {prims : Pipeline.Primitives} {writeProfile : EmbeddingProfile → List UInt8}
  {unitNorm : List F32 → Bool} {environment : Environment} {profile : EmbeddingProfile}
  {assign : String → List F32} {table after : CacheTable} {inputs : List EmbeddingInput}
  {batchSize : ℕ}

/-- The embedder gives every text its own vector, whatever the batch; it may fail. -/
def Environment.Pointwise (environment : Environment) (assign : String → List F32) : Prop :=
  ∀ n texts vectors, environment.embed n texts = .ok vectors → vectors = texts.map assign

/-- The inputs whose key is not in the table, with their ordinals. -/
def missingIn (prims : Pipeline.Primitives) (writeProfile : EmbeddingProfile → List UInt8)
    (profile : EmbeddingProfile) (table : CacheTable) (inputs : List EmbeddingInput) :
    List (ℕ × EmbeddingInput) :=
  inputs.zipIdx.filterMap fun (input, ordinal) =>
    if (table.get? (cacheKey prims writeProfile profile input)).isNone then some (ordinal, input)
    else none

/-- The table with the vectors of a batch. -/
def writeBatch (prims : Pipeline.Primitives) (writeProfile : EmbeddingProfile → List UInt8)
    (profile : EmbeddingProfile) (assign : String → List F32) (table : CacheTable)
    (batch : List (ℕ × EmbeddingInput)) : CacheTable :=
  EmbeddingCache.putBatch table (batch.map fun missing =>
    (cacheKey prims writeProfile profile missing.2, assign missing.2.text))

/-- All vectors of the batch pass the check. -/
def CheckedBatch (unitNorm : List F32 → Bool) (profile : EmbeddingProfile)
    (assign : String → List F32) (batch : List (ℕ × EmbeddingInput)) : Prop :=
  ∀ missing ∈ batch, validateVector unitNorm (assign missing.2.text) profile.dimensions
    profile.normalization = .ok ()

/-- The table after is the table before with the first batches written, whole and checked. -/
def WritesPrefix (prims : Pipeline.Primitives) (writeProfile : EmbeddingProfile → List UInt8)
    (unitNorm : List F32 → Bool) (profile : EmbeddingProfile) (assign : String → List F32)
    (batches : List (List (ℕ × EmbeddingInput))) (before after : CacheTable) : Prop :=
  ∃ written rest, batches = written ++ rest ∧
    after = written.foldl (writeBatch prims writeProfile profile assign) before ∧
    ∀ batch ∈ written, CheckedBatch unitNorm profile assign batch

theorem writesPrefix_refl (batches : List (List (ℕ × EmbeddingInput))) (table : CacheTable) :
    WritesPrefix prims writeProfile unitNorm profile assign batches table table :=
  ⟨[], batches, rfl, rfl, by simp⟩

/-- One batch is written whole or not at all. -/
theorem embedBatch_holds (hpointwise : environment.Pointwise assign) (n : ℕ)
    (batch : List (ℕ × EmbeddingInput)) {crash : CacheTable → Prop}
    (hbefore : crash table)
    (hafter : CheckedBatch unitNorm profile assign batch →
      crash (writeBatch prims writeProfile profile assign table batch)) :
    (embedBatch prims writeProfile unitNorm environment profile n batch).Holds crash
      (fun result after => match result with
        | .ok vectors => vectors = batch.map (fun missing => assign missing.2.text) ∧
            CheckedBatch unitNorm profile assign batch ∧
            after = writeBatch prims writeProfile profile assign table batch
        | .error _ => after = table) table := by
  unfold embedBatch
  refine Program.holds_result_bind hbefore (fun _ _ => rfl) ?_
  intro vectors hembed
  have hvectors := hpointwise _ _ _ hembed
  rw [List.map_map] at hvectors
  by_cases hlength : vectors.length ≠ batch.length
  · rw [if_pos hlength]
    exact ⟨hbefore, rfl⟩
  · rw [if_neg hlength]
    refine Program.holds_result_bind hbefore (fun _ _ => rfl) ?_
    intro _ hchecks
    have hchecked : CheckedBatch unitNorm profile assign batch := by
      intro missing hmissing
      refine forM_eq_ok.mp hchecks _ ?_
      rw [hvectors]
      exact List.mem_map_of_mem hmissing
    refine Program.holds_result_bind hbefore (fun _ _ => rfl) ?_
    intro _ _
    have hrows : (batch.map fun missing => cacheKey prims writeProfile profile missing.2).zip
        vectors = batch.map fun missing =>
          (cacheKey prims writeProfile profile missing.2, assign missing.2.text) := by
      rw [hvectors, List.zip_map']
      rfl
    rw [hrows]
    exact ⟨hbefore, hafter hchecked, hvectors, hchecked, rfl⟩

/-- **The batches of a run.** Wherever the run ends, a prefix of the batches has been
written; if it ends well, all of them, and their vectors are those of their texts. -/
theorem embedBatches_holds (hpointwise : environment.Pointwise assign) (n : ℕ)
    (batches : List (List (ℕ × EmbeddingInput))) (table : CacheTable) :
    (embedBatches prims writeProfile unitNorm environment profile n batches).Holds
      (WritesPrefix prims writeProfile unitNorm profile assign batches table)
      (fun result after =>
        WritesPrefix prims writeProfile unitNorm profile assign batches table after ∧
        ∀ vectors, result = .ok vectors →
          vectors = batches.map fun batch => batch.map fun missing => assign missing.2.text)
      table := by
  induction batches generalizing n table with
  | nil =>
    refine ⟨writesPrefix_refl _ _, writesPrefix_refl _ _, ?_⟩
    rintro vectors ⟨⟩
    rfl
  | cons batch batches ih =>
    -- what is written after the first batch is written after it and the first batch
    have hcons : ∀ {after}, CheckedBatch unitNorm profile assign batch →
        WritesPrefix prims writeProfile unitNorm profile assign batches
          (writeBatch prims writeProfile profile assign table batch) after →
        WritesPrefix prims writeProfile unitNorm profile assign (batch :: batches) table after := by
      rintro after hchecked ⟨written, rest, rfl, rfl, hwritten⟩
      exact ⟨batch :: written, rest, rfl, rfl, List.forall_mem_cons.mpr ⟨hchecked, hwritten⟩⟩
    rw [embedBatches, Program.holds_bind]
    refine (embedBatch_holds hpointwise n batch (writesPrefix_refl _ _) fun hchecked =>
      hcons hchecked (writesPrefix_refl _ _)).imp (fun _ => id) ?_
    rintro (error | vectors) after hafter
    · obtain rfl : after = table := hafter
      exact ⟨writesPrefix_refl _ _, nofun⟩
    · obtain ⟨hvectors, hchecked, rfl⟩ := hafter
      show Program.Holds _ (_ >>= _) _ _
      rw [Program.holds_bind]
      refine (ih (n + 1) _).imp (fun _ => hcons hchecked) ?_
      rintro (error | rest) after ⟨hstarts, hrest⟩
      · exact ⟨hcons hchecked hstarts, nofun⟩
      · refine ⟨hcons hchecked hstarts, hcons hchecked hstarts, ?_⟩
        rintro all ⟨⟩
        rw [List.map_cons, hvectors, hrest rest rfl]

/-! ### Looking up -/

/-- What the table holds for an input. -/
def foundIn (prims : Pipeline.Primitives) (writeProfile : EmbeddingProfile → List UInt8)
    (profile : EmbeddingProfile) (table : CacheTable) (input : EmbeddingInput) :
    Option (List F32) :=
  (table.get? (cacheKey prims writeProfile profile input)).map fun row => decodeVector row.vector

theorem eq_foundIn_of_lookUp {input : EmbeddingInput} {ordinal : ℕ} {found : Option (List F32)}
    (h : lookUp prims writeProfile unitNorm environment profile table input ordinal = .ok found) :
    found = foundIn prims writeProfile profile table input := by
  unfold lookUp EmbeddingCache.get at h
  obtain ⟨_, -, h⟩ := bind_eq_ok.mp h
  rw [foundIn]
  cases hrow : table.get? (cacheKey prims writeProfile profile input) with
  | none =>
    rw [hrow] at h
    exact (pure_eq_ok.mp h).symm
  | some row =>
    rw [hrow] at h
    obtain ⟨vector, hvector, h⟩ := bind_eq_ok.mp h
    obtain ⟨_, -, hvector⟩ := bind_eq_ok.mp hvector
    obtain rfl := pure_eq_ok.mp hvector
    obtain ⟨_, -, h⟩ := bind_eq_ok.mp h
    exact (pure_eq_ok.mp h).symm

theorem eq_of_scan {found : List (Option (List F32))}
    (h : scan prims writeProfile unitNorm environment profile table inputs = .ok found) :
    found = inputs.map (foundIn prims writeProfile profile table) := by
  have hmap : inputs.zipIdx.map (fun row => foundIn prims writeProfile profile table row.1) =
      inputs.map (foundIn prims writeProfile profile table) := by
    have hfirst : inputs.zipIdx.map Prod.fst = inputs := List.zipIdx_map_fst 0 inputs
    rw [← hfirst, List.map_map, hfirst]
    rfl
  rw [← hmap]
  refine eq_map_of_mapM h ?_
  rintro ⟨input, ordinal⟩ _ found hfound
  exact eq_foundIn_of_lookUp hfound

theorem zip_foundIn (inputs : List EmbeddingInput) :
    inputs.zip (inputs.map (foundIn prims writeProfile profile table)) =
      inputs.map fun input => (input, foundIn prims writeProfile profile table input) := by
  have hself := @List.zip_map' _ _ _ id (foundIn prims writeProfile profile table) inputs
  rwa [List.map_id] at hself

theorem missingOf_eq_missingIn (inputs : List EmbeddingInput) :
    missingOf inputs (inputs.map (foundIn prims writeProfile profile table)) =
      missingIn prims writeProfile profile table inputs := by
  rw [missingOf, zip_foundIn, List.zipIdx_map, List.filterMap_map, missingIn]
  refine List.filterMap_congr ?_
  rintro ⟨input, ordinal⟩ _
  show (if (foundIn prims writeProfile profile table input).isNone then some (ordinal, input)
    else none) = if (table.get? _).isNone then some (ordinal, input) else none
  rw [foundIn, Option.isNone_map]

/-! ### Runs and what they leave -/

/-- The batches of a run on a table. -/
def runBatches (prims : Pipeline.Primitives) (writeProfile : EmbeddingProfile → List UInt8)
    (profile : EmbeddingProfile) (inputs : List EmbeddingInput) (batchSize : ℕ)
    (table : CacheTable) : List (List (ℕ × EmbeddingInput)) :=
  chunks batchSize (missingIn prims writeProfile profile table inputs)

theorem ensureCached_holds (hpointwise : environment.Pointwise assign) :
    (ensureCached prims writeProfile unitNorm environment profile inputs batchSize).Holds
      (WritesPrefix prims writeProfile unitNorm profile assign
        (runBatches prims writeProfile profile inputs batchSize table) table)
      (fun _ after => WritesPrefix prims writeProfile unitNorm profile assign
        (runBatches prims writeProfile profile inputs batchSize table) table after) table := by
  have hstart : WritesPrefix prims writeProfile unitNorm profile assign
      (runBatches prims writeProfile profile inputs batchSize table) table table :=
    writesPrefix_refl _ _
  unfold ensureCached
  refine Program.holds_result_bind hstart (fun _ _ => hstart) ?_
  intro _ _
  refine Program.holds_result_bind hstart (fun _ _ => hstart) ?_
  intro _ _
  rw [Program.holds_get_bind]
  refine Program.holds_result_bind hstart (fun _ _ => hstart) ?_
  intro found hscan
  rw [eq_of_scan hscan, missingOf_eq_missingIn, Program.holds_bind]
  refine (embedBatches_holds hpointwise 0 _ table).imp (fun _ => id) ?_
  rintro (error | vectors) after ⟨hstarts, -⟩
  · exact hstarts
  · exact ⟨hstarts, hstarts⟩

/-- The document has the id and the vector of the input at its place. -/
def OutputOf (assign : String → List F32) (inputs : List EmbeddingInput)
    (output : List (Option EmbeddedDocument)) : Prop :=
  output.length = inputs.length ∧
    ∀ (i : ℕ) (document : EmbeddedDocument), output[i]? = some (some document) →
      ∃ input, inputs[i]? = some input ∧ document.documentId = input.documentId ∧
        document.vector = assign input.text

theorem OutputOf.set {output : List (Option EmbeddedDocument)}
    (h : OutputOf assign inputs output) {missing : ℕ × EmbeddingInput}
    (hmissing : inputs[missing.1]? = some missing.2) :
    OutputOf assign inputs (output.set missing.1
      (some ⟨missing.2.documentId, assign missing.2.text, false⟩)) := by
  refine ⟨by rw [List.length_set, h.1], ?_⟩
  intro i document hdocument
  rw [List.getElem?_set] at hdocument
  split at hdocument
  · next hi =>
    subst hi
    split at hdocument
    · obtain rfl := Option.some.inj (Option.some.inj hdocument)
      exact ⟨missing.2, hmissing, rfl, rfl⟩
    · cases hdocument
  · exact h.2 i document hdocument

/-- Scattering the batches keeps every place right. -/
theorem OutputOf.scatterAll {batches : List (List (ℕ × EmbeddingInput))}
    {output : List (Option EmbeddedDocument)} (h : OutputOf assign inputs output)
    (hbatches : ∀ batch ∈ batches, ∀ missing ∈ batch, inputs[missing.1]? = some missing.2) :
    OutputOf assign inputs
      ((batches.zip (batches.map fun batch => batch.map fun missing =>
        assign missing.2.text)).foldl (fun output batch => scatter output batch.1 batch.2)
        output) := by
  have hscatter : ∀ (batch : List (ℕ × EmbeddingInput)) (output : List (Option EmbeddedDocument)),
      OutputOf assign inputs output → (∀ missing ∈ batch, inputs[missing.1]? = some missing.2) →
      OutputOf assign inputs
        (scatter output batch (batch.map fun missing => assign missing.2.text)) := by
    intro batch
    induction batch with
    | nil => exact fun _ h _ => h
    | cons missing batch ih =>
      intro output h hbatch
      rw [List.forall_mem_cons] at hbatch
      exact ih _ (h.set hbatch.1) hbatch.2
  induction batches generalizing output with
  | nil => exact h
  | cons batch batches ih =>
    rw [List.forall_mem_cons] at hbatches
    exact ih (hscatter batch output h hbatches.1) hbatches.2

/-- Read out, a right output is the list of the ids and vectors of the inputs. -/
theorem OutputOf.map_eq {output : List (Option EmbeddedDocument)}
    (h : OutputOf assign inputs output) {documents : List EmbeddedDocument} {error : EmbeddingError}
    (hdocuments : (output.mapM fun document => orThrow document error) = .ok documents) :
    documents.map (fun document => (document.documentId, document.vector)) =
      inputs.map fun input => (input.documentId, assign input.text) := by
  have hall := mapM_eq_ok.mp hdocuments
  refine List.ext_getElem? ?_
  intro i
  rw [List.getElem?_map, List.getElem?_map]
  by_cases hi : i < inputs.length
  · have hdocument : i < documents.length := by rw [← hall.length_eq, h.1]; exact hi
    have hrow := hall.get (by rw [h.1]; exact hi) hdocument
    rw [orThrow_eq_ok] at hrow
    obtain ⟨input, hinput, hid, hvector⟩ := h.2 i _ (by
      rw [List.getElem?_eq_getElem (by rw [h.1]; exact hi)]
      exact congrArg some hrow)
    rw [hinput, List.getElem?_eq_getElem hdocument, Option.map_some, Option.map_some]
    exact congrArg some (Prod.ext hid hvector)
  · have hdocument : documents.length ≤ i := by rw [← hall.length_eq, h.1]; omega
    rw [List.getElem?_eq_none hdocument, List.getElem?_eq_none (by omega), Option.map_none,
      Option.map_none]

/-- A missing input stands at its ordinal. -/
theorem getElem?_of_mem_missingIn {missing : ℕ × EmbeddingInput}
    (h : missing ∈ missingIn prims writeProfile profile table inputs) :
    inputs[missing.1]? = some missing.2 := by
  obtain ⟨⟨input, ordinal⟩, hmem, hrow⟩ := List.mem_filterMap.mp h
  simp only at hrow
  split at hrow
  · obtain rfl := Option.some.inj hrow
    exact List.mem_zipIdx_iff_getElem?.mp hmem
  · cases hrow

/-- What the table holds is right for the inputs: the vectors of their own texts. -/
def RightFor (prims : Pipeline.Primitives) (writeProfile : EmbeddingProfile → List UInt8)
    (profile : EmbeddingProfile) (assign : String → List F32) (inputs : List EmbeddingInput)
    (table : CacheTable) : Prop :=
  ∀ input ∈ inputs, ∀ vector,
    foundIn prims writeProfile profile table input = some vector → vector = assign input.text

/-- **A run that resumes.** Wherever it ends it has written a prefix of its batches; if it
succeeds on a table that is right for its inputs, it returns the vectors of their texts. -/
theorem embedResumable_holds (hpointwise : environment.Pointwise assign) :
    (embedResumable prims writeProfile unitNorm environment profile inputs batchSize).Holds
      (WritesPrefix prims writeProfile unitNorm profile assign
        (runBatches prims writeProfile profile inputs batchSize table) table)
      (fun result after =>
        WritesPrefix prims writeProfile unitNorm profile assign
          (runBatches prims writeProfile profile inputs batchSize table) table after ∧
        (RightFor prims writeProfile profile assign inputs table → ∀ documents,
          result = .ok documents →
          documents.map (fun document => (document.documentId, document.vector)) =
            inputs.map fun input => (input.documentId, assign input.text))) table := by
  have hstart : WritesPrefix prims writeProfile unitNorm profile assign
      (runBatches prims writeProfile profile inputs batchSize table) table table :=
    writesPrefix_refl _ _
  have hfail : ∀ error : EmbeddingError, WritesPrefix prims writeProfile unitNorm profile assign
      (runBatches prims writeProfile profile inputs batchSize table) table table ∧
      (RightFor prims writeProfile profile assign inputs table → ∀ documents,
        (.error error : Except EmbeddingError (List EmbeddedDocument)) = .ok documents →
        documents.map (fun document => (document.documentId, document.vector)) =
          inputs.map fun input => (input.documentId, assign input.text)) :=
    fun _ => ⟨hstart, fun _ => nofun⟩
  unfold embedResumable
  refine Program.holds_result_bind hstart (fun error _ => hfail error) ?_
  intro _ hsize
  rw [Program.holds_get_bind]
  refine Program.holds_result_bind hstart (fun error _ => hfail error) ?_
  intro found hscan
  rw [eq_of_scan hscan, missingOf_eq_missingIn]
  dsimp only
  rw [Program.holds_bind]
  refine (embedBatches_holds hpointwise 0 _ table).imp (fun _ => id) ?_
  rintro (error | vectors) after ⟨hstarts, hvectors⟩
  · exact ⟨hstarts, fun _ => nofun⟩
  refine ⟨hstarts, hstarts, ?_⟩
  intro hright documents hdocuments
  rw [hvectors vectors rfl] at hdocuments
  -- what was found is right, and scattering keeps it so
  have hfound : OutputOf assign inputs
      ((inputs.zip (inputs.map (foundIn prims writeProfile profile table))).map
        fun (input, vector) => vector.map fun vector =>
          EmbeddedDocument.mk input.documentId vector true) := by
    rw [zip_foundIn, List.map_map]
    refine ⟨List.length_map _, ?_⟩
    intro i document hdocument
    rw [List.getElem?_map] at hdocument
    obtain ⟨input, hinput, hentry⟩ := Option.map_eq_some_iff.mp hdocument
    obtain ⟨vector, hvector, rfl⟩ := Option.map_eq_some_iff.mp
      (show (foundIn prims writeProfile profile table input).map _ = some document from hentry)
    exact ⟨input, hinput, rfl, hright input (List.mem_of_getElem? hinput) vector hvector⟩
  refine OutputOf.map_eq (hfound.scatterAll ?_) hdocuments
  intro batch hbatch missing hmissing
  have hpositive : 0 < batchSize := by
    rw [throwIf_eq_ok] at hsize
    omega
  have hmem : missing ∈ missingIn prims writeProfile profile table inputs := by
    rw [← flatten_chunks hpositive (missingIn prims writeProfile profile table inputs)]
    exact List.mem_flatten_of_mem hbatch hmissing
  exact getElem?_of_mem_missingIn hmem

inductive CacheRunKind where
  | ensureCached
  | embedResumable
  deriving DecidableEq

/-- A run with what it meets outside. -/
structure CacheRun where
  kind : CacheRunKind
  environment : Environment
  inputs : List EmbeddingInput
  batchSize : ℕ

/-- The run as a program; what it returns is of no account here. -/
def CacheRun.program (prims : Pipeline.Primitives) (writeProfile : EmbeddingProfile → List UInt8)
    (unitNorm : List F32 → Bool) (profile : EmbeddingProfile) (run : CacheRun) :
    CacheProgram Unit :=
  match run.kind with
  | .ensureCached => (fun _ => ()) <$>
      ensureCached prims writeProfile unitNorm run.environment profile run.inputs run.batchSize
  | .embedResumable => (fun _ => ()) <$>
      embedResumable prims writeProfile unitNorm run.environment profile run.inputs run.batchSize

/-- **What a run leaves.** Ended or cut off, it leaves the table before with a prefix of its
batches, whole and checked. -/
theorem CacheRun.leaves_prefix {run : CacheRun} (hpointwise : run.environment.Pointwise assign)
    (h : (run.program prims writeProfile unitNorm profile).Cut table after) :
    WritesPrefix prims writeProfile unitNorm profile assign
      (runBatches prims writeProfile profile run.inputs run.batchSize table) table after := by
  have hholds : (run.program prims writeProfile unitNorm profile).Holds
      (WritesPrefix prims writeProfile unitNorm profile assign
        (runBatches prims writeProfile profile run.inputs run.batchSize table) table)
      (fun _ _ => True) table := by
    unfold CacheRun.program
    split
    · exact Program.holds_map.mpr ((ensureCached_holds hpointwise).imp (fun _ => id)
        fun _ _ _ => trivial)
    · exact Program.holds_map.mpr ((embedResumable_holds hpointwise).imp (fun _ => id)
        fun _ _ _ => trivial)
  exact (Program.holds_iff.mp hholds).2 after h

/-- A table reached from the empty one by runs with one profile and one embedder, each ended
or cut off, over the given inputs. -/
inductive ReachedBy (prims : Pipeline.Primitives) (writeProfile : EmbeddingProfile → List UInt8)
    (unitNorm : List F32 → Bool) (profile : EmbeddingProfile) (assign : String → List F32) :
    List EmbeddingInput → CacheTable → Prop where
  | start : ReachedBy prims writeProfile unitNorm profile assign [] .empty
  | run {seen : List EmbeddingInput} {table after : CacheTable}
      (reached : ReachedBy prims writeProfile unitNorm profile assign seen table) (run : CacheRun)
      (pointwise : run.environment.Pointwise assign)
      (cut : (run.program prims writeProfile unitNorm profile).Cut table after) :
      ReachedBy prims writeProfile unitNorm profile assign (seen ++ run.inputs) after

/-- The row made for an input. -/
def rowOf (assign : String → List F32) (input : EmbeddingInput) : CachedVector :=
  storedVector (assign input.text)

/-- Batches of inputs that are accounted for keep a table faithful. -/
theorem Faithful.writesPrefix {seen : List EmbeddingInput}
    {batches : List (List (ℕ × EmbeddingInput))}
    (h : Faithful (cacheKey prims writeProfile profile) (rowOf assign) seen table)
    (hseen : ∀ batch ∈ batches, ∀ missing ∈ batch, missing.2 ∈ seen)
    (hwritten : WritesPrefix prims writeProfile unitNorm profile assign batches table after) :
    Faithful (cacheKey prims writeProfile profile) (rowOf assign) seen after := by
  obtain ⟨written, rest, rfl, rfl, -⟩ := hwritten
  clear unitNorm
  induction written generalizing table with
  | nil => exact h
  | cons batch written ih =>
    rw [List.cons_append, List.forall_mem_cons] at hseen
    refine ih ?_ hseen.2
    have hall := @Faithful.insertAll _ _ _ _ _ _ _ _ h (batch.map Prod.snd) (by
      intro input hinput
      obtain ⟨missing, hmissing, rfl⟩ := List.mem_map.mp hinput
      exact hseen.1 missing hmissing)
    rw [List.foldl_map] at hall
    rw [writeBatch, EmbeddingCache.putBatch, List.foldl_map]
    exact hall

/-- A reached table is faithful to the inputs of the runs. -/
theorem ReachedBy.faithful {seen : List EmbeddingInput}
    (h : ReachedBy prims writeProfile unitNorm profile assign seen table) :
    Faithful (cacheKey prims writeProfile profile) (rowOf assign) seen table := by
  induction h with
  | start => exact faithful_empty _ _ _
  | run reached run pointwise cut ih =>
    refine Faithful.writesPrefix (ih.mono fun x hx => List.mem_append_left _ hx) ?_
      (run.leaves_prefix pointwise cut)
    intro batch hbatch missing hmissing
    refine List.mem_append_right _ ?_
    have hchunk : missing ∈ missingIn prims writeProfile profile _ run.inputs :=
      mem_of_mem_chunks hbatch hmissing
    exact List.mem_of_getElem? (getElem?_of_mem_missingIn hchunk)

/-! ### Keys determine texts -/

/-- No two of the strings hashed for the inputs collide. -/
structure NoCollision (prims : Pipeline.Primitives) (writeProfile : EmbeddingProfile → List UInt8)
    (profile : EmbeddingProfile) (inputs : List EmbeddingInput) : Prop where
  texts : ∀ a ∈ inputs, ∀ b ∈ inputs,
    prims.sha256 (Text.utf8 a.text) = prims.sha256 (Text.utf8 b.text) →
      Text.utf8 a.text = Text.utf8 b.text
  keys : ∀ a ∈ inputs, ∀ b ∈ inputs,
    prims.sha256 (cacheKeyMaterial prims writeProfile profile a) =
        prims.sha256 (cacheKeyMaterial prims writeProfile profile b) →
      cacheKeyMaterial prims writeProfile profile a = cacheKeyMaterial prims writeProfile profile b

/-- **The key of an input determines its text.** Whatever bytes the ids contain, the digest
of the text stands at a fixed distance from the end of what is hashed. -/
theorem text_of_cacheKey (h : NoCollision prims writeProfile profile inputs)
    {a b : EmbeddingInput} (ha : a ∈ inputs) (hb : b ∈ inputs)
    (hkey : cacheKey prims writeProfile profile a = cacheKey prims writeProfile profile b) :
    a.text = b.text := by
  have hmaterial := h.keys a ha b hb (Subtype.ext hkey)
  have hlength : ∀ input : EmbeddingInput,
      (Text.utf8 (prims.sha256 (Text.utf8 input.text)).val).length = 64 := by
    intro input
    rw [Text.length_utf8, Pipeline.Digest.utf8ByteSize_eq]
  have hend := (List.append_inj' hmaterial (by simp only [List.length_append, hlength])).2
  have hdigest := (List.append_inj hend (by rw [hlength, hlength])).1
  exact Text.utf8_injective (h.texts a ha b hb
    (Subtype.ext (Text.utf8_injective hdigest)))

/-- **An interrupted embedding resumes to the same result.** On a table reached by any
earlier runs with the profile and the embedder, a run that succeeds returns the vectors of
the texts in the order of the inputs; and whatever becomes of a run, it leaves the table
before with a prefix of its batches, whole and checked. -/
theorem embedResumable_resumes (prims : Pipeline.Primitives)
    (writeProfile : EmbeddingProfile → List UInt8) (unitNorm : List F32 → Bool)
    (profile : EmbeddingProfile) (assign : String → List F32) (seen : List EmbeddingInput)
    (table : CacheTable)
    (hreached : ReachedBy prims writeProfile unitNorm profile assign seen table)
    (environment : Environment) (hpointwise : environment.Pointwise assign)
    (inputs : List EmbeddingInput) (batchSize : ℕ)
    (hcollision : NoCollision prims writeProfile profile (seen ++ inputs)) :
    (∀ documents, ((embedResumable prims writeProfile unitNorm environment profile inputs
        batchSize).run table).1 = .ok documents →
      documents.map (fun document => (document.documentId, document.vector)) =
        inputs.map fun input => (input.documentId, assign input.text)) ∧
    ∀ run : CacheRun, run.environment.Pointwise assign → ∀ after,
      (run.program prims writeProfile unitNorm profile).Cut table after →
      WritesPrefix prims writeProfile unitNorm profile assign
        (runBatches prims writeProfile profile run.inputs run.batchSize table) table after := by
  refine ⟨?_, fun run hrun after hcut => run.leaves_prefix hrun hcut⟩
  have hfaithful : Faithful (cacheKey prims writeProfile profile) (rowOf assign) (seen ++ inputs)
      table := hreached.faithful.mono fun x hx => List.mem_append_left _ hx
  have hright : RightFor prims writeProfile profile assign inputs table := by
    intro input hinput vector hfound
    obtain ⟨row, hrow, rfl⟩ := Option.map_eq_some_iff.mp hfound
    have hvalue := hfaithful.hit (fun a ha b hb hkey => by
      rw [rowOf, rowOf, text_of_cacheKey hcollision ha hb hkey])
      (List.mem_append_right seen hinput) hrow
    rw [hvalue]
    exact decodeVector_vectorBytes _
  exact (Program.holds_iff.mp (embedResumable_holds hpointwise)).1.2 hright

end Runs

def cachedProfile : EmbeddingProfile :=
  ⟨"profile", "1", "sha", "model", 1, "none", none, none, none⟩

def cachedInputs : List EmbeddingInput := [⟨"d1", "s1", "one"⟩, ⟨"d2", "s2", "fourteen"⟩]

/-- A vector of one number, the length of the text. -/
def lengthVector (text : String) : List F32 := [Fin.ofNat (2 ^ 32) text.length]

/-- An embedder of one-dimensional vectors that replies to the first `replies` batches. -/
def lengthEmbedder (replies : ℕ) : Environment where
  embed n texts :=
    if n < replies then .ok (texts.map lengthVector) else .error .io
  lookUpError _ := none
  commitError _ := none

theorem lengthEmbedder_pointwise (replies : ℕ) :
    (lengthEmbedder replies).Pointwise lengthVector := by
  intro n texts vectors h
  rw [lengthEmbedder] at h
  dsimp only at h
  split at h
  · exact (Except.ok.inj h).symm
  · cases h

/-- A run of two batches that fails at the second. -/
def failedRun : CacheRun := ⟨.embedResumable, lengthEmbedder 1, cachedInputs, 1⟩

/-- A run on what is left by one that failed at its second batch. -/
theorem resumes_after_failed_batch :
    ∃ table, (failedRun.program Pipeline.samplePrimitives (fun _ => [1]) (fun _ => true)
        cachedProfile).Cut .empty table ∧
      (∀ documents, ((embedResumable Pipeline.samplePrimitives (fun _ => [1]) (fun _ => true)
          (lengthEmbedder 2) cachedProfile cachedInputs 2).run table).1 = .ok documents →
        documents.map (fun document => (document.documentId, document.vector)) =
          cachedInputs.map fun input => (input.documentId, lengthVector input.text)) ∧
      ∀ run : CacheRun, run.environment.Pointwise lengthVector → ∀ after,
        (run.program Pipeline.samplePrimitives (fun _ => [1]) (fun _ => true) cachedProfile).Cut
          table after →
        WritesPrefix Pipeline.samplePrimitives (fun _ => [1]) (fun _ => true) cachedProfile
          lengthVector (runBatches Pipeline.samplePrimitives (fun _ => [1]) cachedProfile
            run.inputs run.batchSize table) table after := by
  have hcut := Program.cut_run (failedRun.program Pipeline.samplePrimitives (fun _ => [1])
    (fun _ => true) cachedProfile) .empty
  refine ⟨_, hcut, embedResumable_resumes _ _ _ cachedProfile lengthVector _ _
    (.run .start failedRun (lengthEmbedder_pointwise 1) hcut) (lengthEmbedder 2)
    (lengthEmbedder_pointwise 2) cachedInputs 2 ⟨?_, ?_⟩⟩
  · show ∀ a ∈ cachedInputs ++ cachedInputs, ∀ b ∈ cachedInputs ++ cachedInputs, _
    decide +kernel
  · show ∀ a ∈ cachedInputs ++ cachedInputs, ∀ b ∈ cachedInputs ++ cachedInputs, _
    decide +kernel

end LivefireRag.Embedding
