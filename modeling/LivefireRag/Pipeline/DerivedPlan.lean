import LivefireRag.Pipeline.BuilderSound

/-!
# Derived plans

A plan is derived for a profile whose vectors are computed from the vectors of the
plan it comes from: same model, same tokenizer, fewer dimensions. No document is
counted again. The derivation writes the profile into the plan, and into every task
the id and the output paths that follow from the profile; ranges, slices and token
data stay as they are.

`deriveEmbeddingPlanV2_preserves` is what the derived plan keeps. Three checkers are
run on it, and what each of them reads is either untouched or forced by the guard of
the derivation:

* the checks of the plan alone: the input limit and the document format, which the
  guard holds equal, and the ids and the paths, which are computed anew
  (`TasksAccepted.rebind`);
* the binding to the manifest, which reads the slices of the tasks;
* the recount, which reads the token data of the tasks and the input limit.

The ids are digests, so that they are distinct, and distinct from those of the source,
is a matter of collisions among the identities that are hashed (`planIdentities`).
-/

namespace LivefireRag.Pipeline

open Fallible Machine Tiling

section Derivation

variable (prims : Primitives)

/-- A task under the identity of another plan. -/
def rebindTask (identity : TaskIdentityContext) (task : EmbeddingTaskV2) :
    Result EmbeddingTaskV2 := do
  let taskId := (embeddingTaskV2Id prims identity task.ordinalStart task.ordinalEnd
    task.embeddingInputOrderSha256 task.documentTokenCountsSha256 task.tokenCount).val
  let resultPath ← SafeRelativePath.new ("parts/" ++ taskId ++ ".f32")
  let receiptPath ← SafeRelativePath.new ("receipts/" ++ taskId ++ ".json")
  return { task with taskId, resultPath, receiptPath }

/-- Rebind an existing token-balanced plan to a post-processing profile. -/
def deriveEmbeddingPlanV2 (source : EmbeddingPlanV2) (embeddingProfile : EmbeddingProfileRef) :
    Result EmbeddingPlanV2 := do
  source.validate prims
  embeddingProfile.validate
  throwIf (source.embeddingProfile.modelArtifact ≠ embeddingProfile.modelArtifact ∨
      source.embeddingProfile.tokenizer ≠ embeddingProfile.tokenizer ∨
      source.embeddingProfile.maximumInputTokens ≠ embeddingProfile.maximumInputTokens ∨
      source.embeddingProfile.pooling ≠ embeddingProfile.pooling ∨
      source.embeddingProfile.documentFormat ≠ embeddingProfile.documentFormat ∨
      source.embeddingProfile.dtype ≠ embeddingProfile.dtype ∨
      source.embeddingProfile.dimensions ≤ embeddingProfile.dimensions ∨
      embeddingProfile.normalization ≠ "l2")
    (.invalid "derived plan profile")
  let identity : TaskIdentityContext := ⟨source.preparedCorpusSha256,
    embeddingProfile.component.sha256, source.executableTokenizer.artifact.sha256⟩
  let tasks ← source.tasks.mapM (rebindTask prims identity)
  EmbeddingPlanV2.seal prims { source with embeddingProfile, tasks }

end Derivation

/-! ### What the guard compares -/

/-- A profile of the same model and input, with fewer dimensions, normalized. -/
structure LowerDimensional (source profile : EmbeddingProfileRef) : Prop where
  modelArtifact : source.modelArtifact = profile.modelArtifact
  tokenizer : source.tokenizer = profile.tokenizer
  maximumInputTokens : source.maximumInputTokens = profile.maximumInputTokens
  pooling : source.pooling = profile.pooling
  documentFormat : source.documentFormat = profile.documentFormat
  dtype : source.dtype = profile.dtype
  dimensions : profile.dimensions < source.dimensions
  normalization : profile.normalization = "l2"

/-- A task with the ranges, slices and token data of another one. -/
structure SameInputs (task original : EmbeddingTaskV2) : Prop where
  ordinalStart : task.ordinalStart = original.ordinalStart
  ordinalEnd : task.ordinalEnd = original.ordinalEnd
  inputSlices : task.inputSlices = original.inputSlices
  inputOrder : task.embeddingInputOrderSha256 = original.embeddingInputOrderSha256
  tokenCount : task.tokenCount = original.tokenCount
  maximumDocumentTokens : task.maximumDocumentTokens = original.maximumDocumentTokens
  tokenCounts : task.documentTokenCountsSha256 = original.documentTokenCountsSha256

/-- A task rebound to an identity: the same inputs under the names the identity gives. -/
structure Rebound (prims : Primitives) (identity : TaskIdentityContext)
    (original task : EmbeddingTaskV2) : Prop where
  inputs : SameInputs task original
  id : task.taskId = (original.expectedId prims identity).val
  resultPath : task.resultPath.val = "parts/" ++ task.taskId ++ ".f32"
  receiptPath : task.receiptPath.val = "receipts/" ++ task.taskId ++ ".json"

/-- Rebinding a task never fails: its paths are named after a digest. -/
theorem rebindTask_ok (prims : Primitives) (identity : TaskIdentityContext)
    (task : EmbeddingTaskV2) :
    ∃ rebound, rebindTask prims identity task = .ok rebound ∧
      Rebound prims identity task rebound := by
  have hresult := isSafeRelativePath_digest ['p', 'a', 'r', 't', 's'] ".f32"
    (by decide) (by decide) (by decide) (task.expectedId prims identity)
  have hreceipt := isSafeRelativePath_digest ['r', 'e', 'c', 'e', 'i', 'p', 't', 's'] ".json"
    (by decide) (by decide) (by decide) (task.expectedId prims identity)
  refine ⟨{ task with
    taskId := (task.expectedId prims identity).val
    resultPath := ⟨_, hresult⟩
    receiptPath := ⟨_, hreceipt⟩ }, ?_, ⟨rfl, rfl, rfl, rfl, rfl, rfl, rfl⟩, rfl, rfl, rfl⟩
  simp only [rebindTask, bind_eq_ok, SafeRelativePath.new_eq_ok, pure_eq_ok]
  exact ⟨⟨_, hresult⟩, rfl, ⟨_, hreceipt⟩, rfl, rfl⟩

/-! ### Tasks under another identity -/

section Rebinding

variable {prims : Primitives} {limits : TaskLimits} {identity identity' : TaskIdentityContext}
  {tasks tasks' : List EmbeddingTaskV2}

/-- The checks of a task read its inputs and its id, and no path. -/
theorem TaskAccepted.rebind {task original : EmbeddingTaskV2}
    (h : TaskAccepted prims limits identity original)
    (hrebound : Rebound prims identity' original task) :
    TaskAccepted prims limits identity' task := by
  obtain ⟨⟨hstart, hend, hslices, horder, htokens, hmaximum, hcounts⟩, hid, -, -⟩ := hrebound
  have hrows : task.rowCount = original.rowCount := by
    rw [EmbeddingTaskV2.rowCount, EmbeddingTaskV2.rowCount, hstart, hend]
  have hexpected : task.expectedId prims identity' = original.expectedId prims identity' := by
    rw [EmbeddingTaskV2.expectedId, EmbeddingTaskV2.expectedId, hstart, hend, horder, hcounts,
      htokens]
  exact {
    start_safe := hstart ▸ h.start_safe
    end_safe := hend ▸ h.end_safe
    tokens_safe := htokens ▸ h.tokens_safe
    slices := hslices ▸ h.slices
    id := hid.trans (congrArg Subtype.val hexpected.symm)
    start_lt_end := by rw [hstart, hend]; exact h.start_lt_end
    rows_sum := by rw [hslices, hrows]; exact h.rows_sum
    rows_le := hrows ▸ h.rows_le
    rows_le_tokens := by rw [hrows, htokens]; exact h.rows_le_tokens
    tokens_le := htokens ▸ h.tokens_le
    tokens_sum := by rw [hslices, htokens]; exact h.tokens_sum
    maximum := by rw [hslices, hmaximum]; exact h.maximum
    maximum_le_input := hmaximum ▸ h.maximum_le_input
    maximum_le_tokens := by rw [hmaximum, htokens]; exact h.maximum_le_tokens }

/-- What a pass over the tasks reads of their inputs, it reads of the rebound tasks. -/
theorem map_eq_of_rebound {β : Type*} {f : EmbeddingTaskV2 → β}
    (h : List.Forall₂ (Rebound prims identity') tasks tasks')
    (hf : ∀ {task original}, SameInputs task original → f task = f original) :
    tasks'.map f = tasks.map f := by
  induction h with
  | nil => rfl
  | cons hhead _ ih => rw [List.map_cons, List.map_cons, hf hhead.inputs, ih]

/-- Each rebound task comes from a task of the list. -/
theorem exists_of_rebound (h : List.Forall₂ (Rebound prims identity') tasks tasks') :
    ∀ task ∈ tasks', ∃ original ∈ tasks, Rebound prims identity' original task := by
  intro task htask
  obtain ⟨i, hi, rfl⟩ := List.mem_iff_getElem.mp htask
  have hi' : i < tasks.length := h.length_eq ▸ hi
  exact ⟨tasks[i], List.getElem_mem hi', h.get hi' hi⟩

/-- **The task list under another identity.** It tiles the documents as before, its
ids are the ones the identity prescribes, and they and the paths named after them
are distinct where the hash keeps the identities apart. -/
theorem TasksAccepted.rebind {documentCount : ℕ}
    (h : TasksAccepted prims limits identity tasks documentCount)
    (hrebound : List.Forall₂ (Rebound prims identity') tasks tasks')
    (hfree : CollisionFree prims identity' tasks') :
    TasksAccepted prims limits identity' tasks' documentCount := by
  have hfrom := exists_of_rebound hrebound
  have haccepted : ∀ task ∈ tasks', TaskAccepted prims limits identity' task := by
    intro task htask
    obtain ⟨original, hmem, htask⟩ := hfrom task htask
    exact (h.accepted original hmem).rebind htask
  have htiles : Tiles (fun task : EmbeddingTaskV2 => (task.ordinalStart : ℕ))
      (fun task => (task.ordinalEnd : ℕ)) 0 tasks' documentCount := by
    refine h.tiles.forall₂ (hrebound.imp fun original task hone => ?_)
    exact ⟨congrArg Fin.val hone.inputs.ordinalStart, congrArg Fin.val hone.inputs.ordinalEnd⟩
  have hids := nodup_taskIds htiles (fun task htask => (haccepted task htask).id) hfree
  have hpaths := nodup_outputPaths hids fun task htask => by
    obtain ⟨_, -, hone⟩ := hfrom task htask
    exact ⟨hone.resultPath, hone.receiptPath⟩
  exact ⟨haccepted, htiles, hids, hpaths⟩

/-- The slices are placed in the manifest by ranges and slices alone. -/
theorem validateV2SlicesAgainstManifest_rebind {objects : List PreparedDocumentObject}
    (hrebound : List.Forall₂ (Rebound prims identity') tasks tasks')
    (h : validateV2SlicesAgainstManifest tasks objects = .ok ()) :
    validateV2SlicesAgainstManifest tasks' objects = .ok () := by
  simp only [validateV2SlicesAgainstManifest, bind_eq_ok, forM_eq_ok] at h ⊢
  obtain ⟨state, hstate, htasks⟩ := h
  refine ⟨state, hstate, fun task htask => ?_⟩
  obtain ⟨original, hmem, hone⟩ := exists_of_rebound hrebound task htask
  have hplace : validateV2SlicePlace state.1 task = validateV2SlicePlace state.1 original := by
    funext next slice
    unfold validateV2SlicePlace
    rw [hone.inputs.ordinalEnd]
  rw [hplace, hone.inputs.inputSlices, hone.inputs.ordinalStart, hone.inputs.ordinalEnd]
  exact htasks original hmem

/-- The recount of a task reads its ranges, slices and token data. -/
theorem validateTaskCounts_congr {task original : EmbeddingTaskV2}
    (h : SameInputs task original) (counts : List U32) :
    validateTaskCounts prims counts task = validateTaskCounts prims counts original := by
  unfold validateTaskCounts
  rw [h.ordinalStart, h.ordinalEnd, h.tokenCount, h.maximumDocumentTokens, h.tokenCounts,
    h.inputSlices]

end Rebinding

/-! ### The main result -/

/-- What the id of a task is the digest of reads its inputs alone. -/
theorem identity_congr {task original : EmbeddingTaskV2} (h : SameInputs task original)
    (context : TaskIdentityContext) : task.identity context = original.identity context := by
  rw [EmbeddingTaskV2.identity, EmbeddingTaskV2.identity, h.ordinalStart, h.ordinalEnd,
    h.inputOrder, h.tokenCounts, h.tokenCount]

/-- What the ids of the tasks of a derived plan depend on besides the tasks. -/
def derivedContext (source : EmbeddingPlanV2) (profile : EmbeddingProfileRef) :
    TaskIdentityContext :=
  ⟨source.preparedCorpusSha256, profile.component.sha256,
    source.executableTokenizer.artifact.sha256⟩

/-- Everything that is hashed for the ids of a plan and of the plan derived from it. -/
def planIdentities (source : EmbeddingPlanV2) (profile : EmbeddingProfileRef) : List Json :=
  source.tasks.map (·.identity source.identityContext) ++
    source.tasks.map (·.identity (derivedContext source profile))

/-- Identities that agree were made under one profile digest. -/
theorem profileSha256_eq_of_identity_eq {context context' : TaskIdentityContext}
    {task other : EmbeddingTaskV2} (h : task.identity context = other.identity context') :
    context.embeddingProfileSha256 = context'.embeddingProfileSha256 := by
  have hvalue : toJson context.embeddingProfileSha256 = toJson context'.embeddingProfileSha256 :=
    Json.mkObject_inj_field h (by simp) (by simp)
      (show ("embedding_profile_sha256", toJson context.embeddingProfileSha256) ∈ _ by simp)
      (by simp)
  apply Subtype.ext
  simpa [toJson] using hvalue

section Main

variable {prims : Primitives} {source : EmbeddingPlanV2} {profile : EmbeddingProfileRef}

/-- The plan whose tasks are rebound is accepted when it carries its digest. -/
theorem withDigest_validate_rebind {tasks : List EmbeddingTaskV2}
    (hsource : source.validate prims = .ok ()) (hprofile : profile.validate = .ok ())
    (hlower : LowerDimensional source.embeddingProfile profile)
    (hrebound : List.Forall₂ (Rebound prims (derivedContext source profile)) source.tasks tasks)
    (hfree : CollisionFree prims (derivedContext source profile) tasks) :
    (EmbeddingPlanV2.withDigest prims
      { source with embeddingProfile := profile, tasks }).validate prims = .ok () := by
  obtain ⟨h1, h2, h3, h4, h5, h6, -, h8, h9, hcounts, htasks, -⟩ :=
    EmbeddingPlanV2.validate_eq_ok.mp hsource
  -- the guard holds equal whatever the checks of the plan read of its profile
  have hformat := hlower.documentFormat ▸ h8
  have htokenizer : source.executableTokenizer.validateForProfile profile = .ok () := by
    rw [ExecutableTokenizerRef.validateForProfile, ← hlower.modelArtifact, ← hlower.tokenizer]
    exact h9
  have hlimits : source.limits =
      ⟨source.maximumTaskTokens, source.maximumTaskDocuments, profile.maximumInputTokens⟩ := by
    rw [EmbeddingPlanV2.limits, hlower.maximumInputTokens]
  have hmetadata : CountMetadataAccepted (EmbeddingPlanV2.withDigest prims
      { source with embeddingProfile := profile, tasks }) := by
    have htotal := map_eq_of_rebound (f := fun task => (task.tokenCount : ℕ)) hrebound
      fun h => congrArg Fin.val h.tokenCount
    have hmaximum := map_eq_of_rebound (f := (·.maximumDocumentTokens)) hrebound
      fun h => h.maximumDocumentTokens
    exact { hcounts with
      total := by
        show (tasks.map _).sum = _
        rw [htotal]
        exact hcounts.total
      maximum := by
        show (tasks.map _).max?.getD 0 = _
        rw [hmaximum]
        exact hcounts.maximum
      maximum_le_input := hlower.maximumInputTokens ▸ hcounts.maximum_le_input }
  have haccepted := htasks.rebind hrebound hfree
  rw [hlimits] at haccepted
  exact EmbeddingPlanV2.validate_eq_ok.mpr ⟨h1, h2, h3, h4, h5, h6, hprofile, hformat, htokenizer,
    hmetadata, haccepted, rfl⟩

/-- The recount reads the rebound plan as it reads the source. -/
theorem validateCountsAgainstPlan_rebind {tasks : List EmbeddingTaskV2}
    (hlower : LowerDimensional source.embeddingProfile profile)
    (hrebound : List.Forall₂ (Rebound prims (derivedContext source profile)) source.tasks tasks)
    (counts : List U32) (digest : Digest) :
    validateCountsAgainstPlan prims { source with
        embeddingProfile := profile, tasks, componentSha256 := digest } counts = .ok () ↔
      validateCountsAgainstPlan prims source counts = .ok () := by
  have htasks := map_eq_of_rebound (f := validateTaskCounts prims counts) hrebound
    fun h => validateTaskCounts_congr h counts
  have hrecounted : (∀ task ∈ tasks, validateTaskCounts prims counts task = .ok ()) ↔
      ∀ task ∈ source.tasks, validateTaskCounts prims counts task = .ok () := by
    have hall : ∀ xs : List EmbeddingTaskV2,
        (∀ task ∈ xs, validateTaskCounts prims counts task = .ok ()) ↔
          ∀ result ∈ xs.map (validateTaskCounts prims counts), result = .ok () :=
      fun xs => by rw [List.forall_mem_map]
    rw [hall, htasks, ← hall]
  simp only [validateCountsAgainstPlan, bind_eq_ok, exists_unit, throwIf_eq_ok, forM_eq_ok,
    hlower.maximumInputTokens, hrecounted]

/-- **A derived plan preserves everything but identity.** For a plan bound to a
manifest and a lower-dimensional profile the derivation returns, as long as the hash
keeps the identities apart. The derived plan differs in its profile, its digest and
its tasks; it is bound to the same manifest and counts the same documents; its tasks
have the same inputs in the same order, under distinct ids and paths; and under
another profile digest no id occurs in both plans. -/
theorem deriveEmbeddingPlanV2_preserves {prepared : PreparedCorpusManifest}
    (hsource : source.validateManifestBinding prims prepared = .ok ())
    (hprofile : profile.validate = .ok ())
    (hlower : LowerDimensional source.embeddingProfile profile)
    (hfree : ∀ a ∈ planIdentities source profile, ∀ b ∈ planIdentities source profile,
      canonicalDigest prims a = canonicalDigest prims b → a = b) :
    ∃ derived, deriveEmbeddingPlanV2 prims source profile = .ok derived ∧
      derived = { source with
        embeddingProfile := profile
        tasks := derived.tasks
        componentSha256 := derived.componentSha256 } ∧
      derived.validateManifestBinding prims prepared = .ok () ∧
      (∀ counts, derived.validateDocumentTokenCounts prims counts = .ok () ↔
        source.validateDocumentTokenCounts prims counts = .ok ()) ∧
      List.Forall₂ SameInputs derived.tasks source.tasks ∧
      (derived.tasks.map (·.taskId)).Nodup ∧ (outputPaths derived.tasks).Nodup ∧
      (source.embeddingProfile.component.sha256 ≠ profile.component.sha256 →
        ∀ task ∈ source.tasks, ∀ other ∈ derived.tasks, task.taskId ≠ other.taskId) := by
  have hvalidSource : source.validate prims = .ok () := by
    simp only [EmbeddingPlanV2.validateManifestBinding, bind_eq_ok, exists_unit] at hsource
    exact hsource.1
  obtain ⟨tasks, htasks, hrebound⟩ := mapM_total fun task (_ : task ∈ source.tasks) =>
    rebindTask_ok prims (derivedContext source profile) task
  -- the identities of the rebound tasks are among those that are hashed
  have hidentity : ∀ task ∈ tasks, task.identity (derivedContext source profile) ∈
      planIdentities source profile := by
    intro task htask
    obtain ⟨original, hmem, hone⟩ := exists_of_rebound hrebound task htask
    rw [identity_congr hone.inputs]
    exact List.mem_append_right _ (List.mem_map_of_mem hmem)
  have hfreeTasks : CollisionFree prims (derivedContext source profile) tasks :=
    fun task htask other hother => hfree _ (hidentity task htask) _ (hidentity other hother)
  have hvalid := withDigest_validate_rebind hvalidSource hprofile hlower hrebound hfreeTasks
  have haccepted := EmbeddingPlanV2.tasksAccepted hvalid
  refine ⟨_, ?_, rfl, ?_, fun counts => ?_, ?_, haccepted.ids_nodup, haccepted.paths_nodup, ?_⟩
  · simp only [deriveEmbeddingPlanV2, bind_eq_ok, exists_unit, throwIf_eq_ok, not_or, not_not,
      not_le, EmbeddingPlanV2.seal_eq_ok]
    exact ⟨hvalidSource, hprofile, ⟨hlower.modelArtifact, hlower.tokenizer,
      hlower.maximumInputTokens, hlower.pooling, hlower.documentFormat, hlower.dtype,
      hlower.dimensions, hlower.normalization⟩, tasks, htasks, rfl, hvalid⟩
  · simp only [EmbeddingPlanV2.validateManifestBinding, bind_eq_ok, exists_unit, throwIf_eq_ok,
      not_or, not_not] at hsource ⊢
    obtain ⟨-, hprepared, hbinding, hslices⟩ := hsource
    exact ⟨hvalid, hprepared, hbinding, validateV2SlicesAgainstManifest_rebind hrebound hslices⟩
  · have hcounts := validateCountsAgainstPlan_rebind hlower hrebound counts
      (canonicalDigest prims (.mkObject
        { source with embeddingProfile := profile, tasks }.body))
    simp only [EmbeddingPlanV2.validateDocumentTokenCounts, bind_eq_ok, exists_unit, hvalidSource,
      hvalid, true_and]
    exact hcounts
  · exact List.forall₂_iff_get.mpr ⟨hrebound.length_eq.symm, fun i hi hi' =>
      (hrebound.get hi' hi).inputs⟩
  · intro hdigests task htask other hother heq
    obtain ⟨original, -, hone⟩ := exists_of_rebound hrebound other hother
    have hid := (haccepted.accepted other hother).id
    rw [← heq, ((source.tasksAccepted hvalidSource).accepted task htask).id] at hid
    have hsame := hfree _ (List.mem_append_left _ (List.mem_map_of_mem htask)) _
      (hidentity other hother) (Subtype.ext hid)
    exact hdigests (profileSha256_eq_of_identity_eq hsame)

end Main

/-! ### A derived plan -/

/-- Half the dimensions of the sample profile, under another digest. -/
def halvedProfile : EmbeddingProfileRef :=
  { sampleProfile with component := ⟨"halved", "1", hexDigest 2⟩, dimensions := 1 }

/-- The sample stand-ins with a writer that tells the two profiles of an identity
apart. -/
def profilePrimitives : Primitives :=
  { samplePrimitives with
    canonicalJsonBytes := fun value =>
      List.replicate (integerSum value + match value with
        | .object members =>
          if (Json.field? members "embedding_profile_sha256").bind Json.asStr =
            some (hexDigest 2).val then 16 else 0
        | _ => 0) 1 }

/-- The two writers differ only on objects with the digest of the halved profile. -/
theorem canonicalDigest_profilePrimitives {fields : List (String × Json)}
    (h : ∀ value, ("embedding_profile_sha256", value) ∈ fields →
      value.asStr ≠ some (hexDigest 2).val) :
    canonicalDigest profilePrimitives (.mkObject fields) =
      canonicalDigest samplePrimitives (.mkObject fields) := by
  have hfield : (Json.field? (SortedMap.ofList fields).entries "embedding_profile_sha256").bind
      Json.asStr ≠ some (hexDigest 2).val := by
    cases hvalue : (SortedMap.ofList fields).get? "embedding_profile_sha256" with
    | none =>
      have hnone : Json.field? (SortedMap.ofList fields).entries "embedding_profile_sha256" =
          none := hvalue
      rw [hnone]
      exact nofun
    | some value =>
      have hsome : Json.field? (SortedMap.ofList fields).entries "embedding_profile_sha256" =
          some value := hvalue
      rw [hsome]
      exact h value (SortedMap.mem_of_get?_ofList hvalue)
  have hbytes : profilePrimitives.canonicalJsonBytes (.mkObject fields) =
      samplePrimitives.canonicalJsonBytes (.mkObject fields) :=
    congrArg (fun extra => List.replicate (integerSum (.mkObject fields) + extra) (1 : UInt8))
      (if_neg hfield)
  exact congrArg (digestBytes samplePrimitives) hbytes

/-- The tasks of the sample plan keep their identities. -/
theorem sampleTask_expectedId (task : EmbeddingTaskV2) :
    task.expectedId profilePrimitives samplePlan.identityContext =
      task.expectedId samplePrimitives samplePlan.identityContext := by
  refine canonicalDigest_profilePrimitives fun value hvalue => ?_
  simp only [List.mem_cons, Prod.mk.injEq, String.reduceEq, false_and, List.not_mem_nil, or_false,
    false_or, true_and] at hvalue
  rw [hvalue]
  exact fun h => absurd (Option.some.inj h) (by decide +kernel)

/-- The sample plan is bound to its manifest under this writer too. -/
theorem samplePlan_binding_profilePrimitives :
    samplePlan.validateManifestBinding profilePrimitives sampleManifest = .ok () := by
  have hmanifest : sampleManifest.validate profilePrimitives = .ok () := by
    obtain ⟨h1, h2, h3, h4, h5, h6, h7, h8, h9, h10, h11, h12, hdigest⟩ :=
      PreparedCorpusManifest.validate_eq_ok.mp sampleManifest_validate
    refine PreparedCorpusManifest.validate_eq_ok.mpr
      ⟨h1, h2, h3, h4, h5, h6, h7, h8, h9, h10, h11, h12, ?_⟩
    rw [canonicalDigest_profilePrimitives, ← hdigest]
    intro value hvalue
    simp [PreparedCorpusManifest.body] at hvalue
  have hplan : samplePlan.validate profilePrimitives = .ok () := by
    obtain ⟨h1, h2, h3, h4, h5, h6, h7, h8, h9, hcounts, htasks, hdigest⟩ :=
      EmbeddingPlanV2.validate_eq_ok.mp samplePlan_validate
    refine EmbeddingPlanV2.validate_eq_ok.mpr
      ⟨h1, h2, h3, h4, h5, h6, h7, h8, h9, hcounts, { htasks with accepted := ?_ }, ?_⟩
    · intro task htask
      have haccepted := htasks.accepted task htask
      refine { haccepted with id := ?_ }
      rw [sampleTask_expectedId]
      exact haccepted.id
    · rw [canonicalDigest_profilePrimitives, ← hdigest]
      intro value hvalue
      simp [EmbeddingPlanV2.body] at hvalue
  have hbinding := samplePlan_validateManifestBinding
  simp only [EmbeddingPlanV2.validateManifestBinding, bind_eq_ok, exists_unit] at hbinding ⊢
  exact ⟨hplan, hmanifest, hbinding.2.2⟩

/-- The sample plan under the halved profile: the four identities that are hashed
have four digests, and the derived plan shares no id with its source. -/
theorem samplePlan_derived :
    ∃ derived, deriveEmbeddingPlanV2 profilePrimitives samplePlan halvedProfile = .ok derived ∧
      derived.validateManifestBinding profilePrimitives sampleManifest = .ok () ∧
      derived.tasks.length = 2 ∧
      ∀ task ∈ samplePlan.tasks, ∀ other ∈ derived.tasks, task.taskId ≠ other.taskId := by
  have hprofile : halvedProfile.validate = .ok () := by decide +kernel
  have hlower : LowerDimensional samplePlan.embeddingProfile halvedProfile :=
    ⟨rfl, rfl, rfl, rfl, rfl, rfl, by decide, rfl⟩
  have hdigests : ((planIdentities samplePlan halvedProfile).map
      (canonicalDigest profilePrimitives)).Nodup := by decide +kernel
  obtain ⟨derived, hrun, -, hbinding, -, hinputs, -, -, hapart⟩ := deriveEmbeddingPlanV2_preserves
    samplePlan_binding_profilePrimitives hprofile hlower fun a ha b hb heq =>
      List.inj_on_of_nodup_map hdigests ha hb heq
  exact ⟨derived, hrun, hbinding, hinputs.length_eq, hapart (by decide +kernel)⟩

end LivefireRag.Pipeline
