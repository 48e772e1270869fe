import LivefireRag.Lib.Ranking
import LivefireRag.Cloud.Report
import LivefireRag.Embedding.TaskPart
import LivefireRag.Launch.Control

/-!
# Model files on the host and in the worker

A bundle lists the objects of the model, one for each file of the checkpoint. The host looks
an object up by its exact key when it loads a bundle (`loadAndValidateBundle`). The worker
takes the first object whose key is the path or ends with a slash and the path
(`modelObjectFor`), so that the files may lie in a directory of their own, and then checks
the object and the directory.

A checkpoint has a `config.json` and a `1_Pooling/config.json`. The second key ends like the
first path, so the worker finds the right object only when the first comes first. The order
`sortModelObjectsForWorker` gives a bundle has that property (`sorted_inWorkerOrder`); the
host does not ask for it.
-/

namespace LivefireRag.Launch

open Fallible Machine Pipeline Cloud Ranking

/-! ### The model manifest -/

structure TeiArtifactObject where
  path : String
  mediaType : String
  bytes : U64
  sha256 : String
  deriving DecidableEq

structure TeiModelArtifactSetV1 where
  schemaVersion : String
  repository : String
  revision : String
  objects : List TeiArtifactObject
  deriving DecidableEq

def teiModelArtifactSetSchemaV1 := "livefire.rag.tei-model-artifact-set/1"
def qwen3Embedding8bRepository := "Qwen/Qwen3-Embedding-8B"
def qwen3Embedding8bRevision := "1d8ad4ca9b3dd8059ad90a75d4983776a23d44af"

def qwen3Embedding8bArtifactSetSha256 :=
  "99beb578f3ca8c20eb204484178bf08fea6f0d7f016ab49ca33a8590e1af2dcb"

def qwen3Embedding8bSnapshotPaths : List String :=
  [".gitattributes", "1_Pooling/config.json", "LICENSE", "README.md", "config.json",
    "config_sentence_transformers.json", "generation_config.json", "merges.txt",
    "model-00001-of-00004.safetensors", "model-00002-of-00004.safetensors",
    "model-00003-of-00004.safetensors", "model-00004-of-00004.safetensors",
    "model.safetensors.index.json", "modules.json", "tokenizer.json", "tokenizer_config.json",
    "vocab.json"]

def validSha256 (value : String) : Bool := IsDigest value ∧ ∃ c ∈ value.toList, c ≠ '0'

def validateArtifact (artifact : TeiArtifactObject) : Except Embedding.EmbeddingError Unit :=
  throwIf (¬ IsSafeRelativePath artifact.path ∨ artifact.mediaType = "" ∨
      (artifact.bytes : ℕ) = 0 ∨ maxSafeJsonInteger < (artifact.bytes : ℕ) ∨
      validSha256 artifact.sha256 = false)
    (.invalid "TEI artifact object")

/-! ### Files -/

/-- A directory tree: its regular files and its directories, by their paths. -/
structure Tree (File : Type) where
  file : SafeRelativePath → Option File
  directory : SafeRelativePath → Bool

/-- The policy a bundle is checked against. -/
structure TeiCheckpointProfileV3 where
  modelArtifactSetSha256 : String
  conformanceFixture : TeiArtifactObject
  executableTokenizer : TeiArtifactObject
  modelObjects : List TeiArtifactObject
  deriving DecidableEq

/-- The length and the digest of a file, the readers of its contents, the digest of a model
manifest, and the checks of the token counts and of the query plan. -/
structure BundleReaders (File : Type) where
  size : File → U64
  sha256 : File → Digest
  bundle : File → Option RunpodEmbeddingBundle
  prepared : File → Option PreparedCorpusManifest
  plan : File → Option EmbeddingPlanV2
  policy : File → Option TeiCheckpointProfileV3
  modelSet : File → Option TeiModelArtifactSetV1
  modelSetSha256 : TeiModelArtifactSetV1 → String
  tokenCounts : Tree File → SafeRelativePath → EmbeddingPlanV2 → Except PipelineError Unit
  queryPlan : File → Except PipelineError Unit

section Model

variable {File : Type} (prims : Primitives) (readers : BundleReaders File)

def TeiModelArtifactSetV1.validate (set : TeiModelArtifactSetV1) :
    Except Embedding.EmbeddingError Unit := do
  throwIf (set.schemaVersion ≠ teiModelArtifactSetSchemaV1 ∨
      set.repository ≠ qwen3Embedding8bRepository ∨ set.revision ≠ qwen3Embedding8bRevision ∨
      set.objects.length ≠ qwen3Embedding8bSnapshotPaths.length)
    (.invalid "TEI model artifact set")
  forM (set.objects.zip qwen3Embedding8bSnapshotPaths) fun (object, expectedPath) => do
    validateArtifact object
    throwIf (object.path ≠ expectedPath) (.invalid "TEI model artifact set path")
  throwIf (readers.modelSetSha256 set ≠ qwen3Embedding8bArtifactSetSha256)
    (.invalid "TEI model artifact set digest")

def parseTeiModelArtifactSetV1 (file : File) :
    Except Embedding.EmbeddingError TeiModelArtifactSetV1 := do
  let set ← orThrow (readers.modelSet file) (.invalid "TEI model artifact set JSON")
  set.validate readers
  return set

/-! ### The host -/

def bundleJson : SafeRelativePath := ⟨"bundle.json", by decide⟩

def readRegularFile (tree : Tree File) (path : SafeRelativePath) : CliResult File :=
  orThrow (tree.file path) (.other "input is not a regular file")

def readJson {α : Type} (read : File → Option α) (tree : Tree File) (path : SafeRelativePath) :
    CliResult α := do
  let file ← readRegularFile tree path
  orThrow (read file) (.other "JSON")

def objectForFile (tree : Tree File) (key : SafeRelativePath) : CliResult CloudObjectRef := do
  let file ← readRegularFile tree key
  throwIf ((readers.size file : ℕ) = 0) (.invalid "object is not a non-empty regular file")
  return ⟨key, readers.size file, readers.sha256 file⟩

def validateCloudObjectFile (tree : Tree File) (object : CloudObjectRef) :
    Except PipelineError Unit := do
  object.validate
  let file ← orThrow (tree.file object.key) (.invalid "artifact path")
  throwIf (readers.size file ≠ object.bytes) (.invalid "cloud input object metadata")
  throwIf (readers.sha256 file ≠ object.sha256) (.invalid "cloud input object digest")

def inputObjects (artifacts : RunpodBundleArtifacts) : List CloudObjectRef :=
  artifacts.components.map (·.object) ++
  [artifacts.documentTokenCounts, artifacts.conformanceFixture, artifacts.queryPlan] ++
  artifacts.modelObjects ++ artifacts.preparedDocuments.map (·.object)

def validateInputFiles (tree : Tree File) (bundle : RunpodEmbeddingBundle)
    (prepared : PreparedCorpusManifest) (plan : EmbeddingPlanV2) : Except PipelineError Unit := do
  bundle.validateAgainst prims prepared plan
  forM (inputObjects bundle.artifacts) (validateCloudObjectFile readers tree)

/-- One file of the model manifest: the object of its exact key is declared as it is. -/
def validateDeclaredObject (objects : List CloudObjectRef) (expected : TeiArtifactObject) :
    CliResult Unit := do
  let declared ← orThrow (objects.find? fun object => object.key.val = expected.path)
    (.invalid "model objects differ from the complete model manifest")
  throwIf (declared.bytes ≠ expected.bytes ∨ declared.sha256.val ≠ expected.sha256)
    (.invalid "model objects differ from the complete model manifest")

def loadAndValidateBundle (tree : Tree File) : CliResult RunpodEmbeddingBundle := do
  let bundle ← readJson readers.bundle tree bundleJson
  let artifacts := bundle.artifacts
  let prepared ← readJson readers.prepared tree artifacts.preparedManifest.object.key
  let plan ← readJson readers.plan tree artifacts.embeddingPlan.object.key
  (plan.validateManifestBinding prims prepared).mapError .pipeline
  (validateInputFiles prims readers tree bundle prepared plan).mapError .pipeline
  (readers.tokenCounts tree artifacts.embeddingPlan.object.key plan).mapError .pipeline
  let policyFile ← readRegularFile tree artifacts.embeddingProfile.object.key
  let policy ← orThrow (readers.policy policyFile) (.other "embedding policy")
  let modelManifestFile ← readRegularFile tree artifacts.modelManifest.object.key
  let modelManifest ← (parseTeiModelArtifactSetV1 readers modelManifestFile).mapError
    fun _ => .other "model manifest"
  throwIf (readers.modelSetSha256 modelManifest ≠ policy.modelArtifactSetSha256)
    (.invalid "model manifest differs from the embedding policy")
  let fixture ← objectForFile readers tree artifacts.conformanceFixture.key
  throwIf (fixture ≠ artifacts.conformanceFixture ∨
      fixture.bytes ≠ policy.conformanceFixture.bytes ∨
      fixture.sha256.val ≠ policy.conformanceFixture.sha256)
    (.invalid "conformance fixture differs from the embedding policy")
  let queryPlan ← readRegularFile tree artifacts.queryPlan.key
  (readers.queryPlan queryPlan).mapError .pipeline
  let tokenizer ← objectForFile readers tree artifacts.executableTokenizer.object.key
  throwIf (tokenizer.bytes ≠ policy.executableTokenizer.bytes ∨
      tokenizer.sha256.val ≠ policy.executableTokenizer.sha256)
    (.invalid "executable tokenizer differs from the embedding policy")
  throwIf (artifacts.modelObjects.length ≠ modelManifest.objects.length)
    (.invalid "model object coverage differs from the complete model manifest")
  forM modelManifest.objects (validateDeclaredObject artifacts.modelObjects)
  return bundle

/-- By the length of the key, then by the key. -/
def sortModelObjectsForWorker (objects : List CloudObjectRef) : List CloudObjectRef :=
  sortBy (fun object => toLex (object.key.val.utf8ByteSize, object.key.val)) objects

/-! ### The worker -/

inductive WorkerError where
  | invalid (what : String)
  | pipeline (error : PipelineError)
  deriving DecidableEq

abbrev WorkerResult := Except WorkerError

def containedExisting (tree : Tree File) (relative : String) : WorkerResult SafeRelativePath := do
  let path ← (SafeRelativePath.new relative).mapError .pipeline
  throwIf (tree.directory path = false) (.pipeline (.invalid "artifact path"))
  return path

def verifiedObject (tree : Tree File) (object : CloudObjectRef) : WorkerResult Unit := do
  let file ← orThrow (tree.file object.key) (.pipeline (.invalid "artifact path"))
  throwIf (readers.size file ≠ object.bytes ∨ readers.sha256 file ≠ object.sha256)
    (.invalid "object_digest")

/-- The key is the path, or the path in some directory. -/
def keyEndsWith (key path : String) : Bool :=
  key = path ∨ (Text.stripEnding path key).any fun head => head.toList.getLast? = some '/'

def modelObjectFor (objects : List CloudObjectRef) (path : String) : Option CloudObjectRef :=
  objects.find? fun item => keyEndsWith item.key.val path

/-- One file of the policy: its object, the file, and the directory it lies in, which is the
one of the files before. -/
def bindModelObject (tree : Tree File) (objects : List CloudObjectRef) (directory : Option String)
    (expected : TeiArtifactObject) : WorkerResult (Option String) := do
  let object ← orThrow (modelObjectFor objects expected.path) (.invalid "model_object_coverage")
  throwIf (object.bytes ≠ expected.bytes ∨ object.sha256.val ≠ expected.sha256)
    (.invalid "model_object_binding")
  verifiedObject readers tree object
  let head ← orThrow (Text.stripEnding expected.path object.key.val) (.invalid "model_object_path")
  let head := Text.trimEnd '/' head
  throwIf (∃ value ∈ directory, value ≠ head) (.invalid "model_object_prefix")
  return some (directory.getD head)

/-- The directory of the model files, none when it is the root of the tree. -/
def validateModelTree (tree : Tree File) (bundle : RunpodEmbeddingBundle)
    (policy : TeiCheckpointProfileV3) : WorkerResult (Option SafeRelativePath) := do
  throwIf (bundle.artifacts.modelObjects.length ≠ policy.modelObjects.length)
    (.invalid "model_object_coverage")
  let directory ← policy.modelObjects.foldlM
    (bindModelObject readers tree bundle.artifacts.modelObjects) none
  let relative ← orThrow directory (.invalid "model_object_prefix")
  if relative = "" then return none else some <$> containedExisting tree relative

end Model

/-! ### When the two agree -/

section Agreement

variable {File : Type} {readers : BundleReaders File}

/-- The worker binds each path of the manifest to the object of that key, and accepts every
tree that holds the objects of the bundle. -/
structure WorkerResolvesAlike (readers : BundleReaders File) (bundle : RunpodEmbeddingBundle)
    (manifest : TeiModelArtifactSetV1) : Prop where
  bound : ∀ expected ∈ manifest.objects, ∃ object,
    modelObjectFor bundle.artifacts.modelObjects expected.path = some object ∧
      object.key.val = expected.path
  accepted : ∀ tree policy, policy.modelObjects = manifest.objects →
    (∀ object ∈ bundle.artifacts.modelObjects, verifiedObject readers tree object = .ok ()) →
      validateModelTree readers tree bundle policy = .ok none

/-- The object of the file of the checkpoint comes before the one whose key ends like it. -/
def InWorkerOrder (objects : List CloudObjectRef) : Prop :=
  ["config.json", "1_Pooling/config.json"].Sublist (objects.map fun object => object.key.val)

instance (objects : List CloudObjectRef) : Decidable (InWorkerOrder objects) := by
  unfold InWorkerOrder
  infer_instance

/-- What the host's check of the model objects says. -/
structure DeclaresModel (objects : List CloudObjectRef) (manifest : TeiModelArtifactSetV1) :
    Prop where
  length : objects.length = manifest.objects.length
  declared : ∀ expected ∈ manifest.objects, ∃ object ∈ objects, object.key.val = expected.path ∧
    object.bytes = expected.bytes ∧ object.sha256.val = expected.sha256
  paths : manifest.objects.map (·.path) = qwen3Embedding8bSnapshotPaths

theorem TeiModelArtifactSetV1.paths_of_validate {set : TeiModelArtifactSetV1} {u : Unit}
    (h : set.validate readers = .ok u) :
    set.objects.map (·.path) = qwen3Embedding8bSnapshotPaths := by
  obtain ⟨_, hshape, h⟩ := bind_eq_ok.mp h
  obtain ⟨_, hobjects, -⟩ := bind_eq_ok.mp h
  rw [throwIf_eq_ok] at hshape
  have hlength : set.objects.length = qwen3Embedding8bSnapshotPaths.length := by
    by_contra hne
    exact hshape (Or.inr (Or.inr (Or.inr hne)))
  rw [forM_eq_ok] at hobjects
  have hzip : (set.objects.zip qwen3Embedding8bSnapshotPaths).map (fun entry => entry.1.path) =
      (set.objects.zip qwen3Embedding8bSnapshotPaths).map Prod.snd := by
    refine List.map_congr_left fun entry hentry => ?_
    obtain ⟨_, -, hpath⟩ := bind_eq_ok.mp (hobjects entry hentry)
    rw [throwIf_eq_ok, not_not] at hpath
    exact hpath
  rw [List.map_snd_zip (le_of_eq hlength.symm)] at hzip
  calc set.objects.map (·.path)
      = ((set.objects.zip qwen3Embedding8bSnapshotPaths).map Prod.fst).map (·.path) := by
        rw [List.map_fst_zip (le_of_eq hlength)]
    _ = (set.objects.zip qwen3Embedding8bSnapshotPaths).map (fun entry => entry.1.path) :=
        List.map_map
    _ = qwen3Embedding8bSnapshotPaths := hzip

/-- Of the paths of the checkpoint, one ends like another one. -/
theorem keyEndsWith_snapshotPath : ∀ path ∈ qwen3Embedding8bSnapshotPaths,
    ∀ key ∈ qwen3Embedding8bSnapshotPaths, keyEndsWith key path = true →
      key = path ∨ path = "config.json" ∧ key = "1_Pooling/config.json" := by
  decide +kernel

theorem keyEndsWith_self (path : String) : keyEndsWith path path = true :=
  decide_eq_true (Or.inl rfl)

/-- The worker finds the first object that matches. -/
theorem sublist_of_modelObjectFor {objects : List CloudObjectRef} {path : String}
    {object other : CloudObjectRef} (hfound : modelObjectFor objects path = some object)
    (hother : other ∈ objects) (hmatches : keyEndsWith other.key.val path = true)
    (hne : other.key.val ≠ object.key.val) :
    [object.key.val, other.key.val].Sublist (objects.map fun object => object.key.val) := by
  obtain ⟨-, before, after, hsplit, hbefore⟩ := List.find?_eq_some_iff_append.mp hfound
  have hafter : other ∈ after := by
    rw [hsplit, List.mem_append, List.mem_cons] at hother
    rcases hother with hother | rfl | hother
    · simpa [hmatches] using hbefore other hother
    · exact absurd rfl hne
    · exact hother
  rw [hsplit, List.map_append, List.map_cons]
  have hmem : other.key.val ∈ after.map fun object => object.key.val :=
    List.mem_map.mpr ⟨other, hafter, rfl⟩
  refine List.Sublist.trans ?_ (List.sublist_append_right _ _)
  exact (List.singleton_sublist.mpr hmem).cons_cons _

section Declared

variable {objects : List CloudObjectRef} {manifest : TeiModelArtifactSetV1}

/-- The keys are the paths of the checkpoint, in some order. -/
theorem DeclaresModel.keys_perm (h : DeclaresModel objects manifest) :
    (objects.map fun object => object.key.val).Perm qwen3Embedding8bSnapshotPaths := by
  have hnodup : qwen3Embedding8bSnapshotPaths.Nodup := by decide
  have hsubset : qwen3Embedding8bSnapshotPaths ⊆ objects.map fun object => object.key.val := by
    intro path hpath
    rw [← h.paths] at hpath
    obtain ⟨expected, hexpected, rfl⟩ := List.mem_map.mp hpath
    obtain ⟨object, hobject, hkey, -⟩ := h.declared expected hexpected
    exact List.mem_map.mpr ⟨object, hobject, hkey⟩
  have hlength : objects.length = qwen3Embedding8bSnapshotPaths.length := by
    rw [h.length, ← h.paths, List.length_map]
  refine ((hnodup.subperm hsubset).perm_of_length_le ?_).symm
  rw [List.length_map, hlength]

theorem DeclaresModel.mem_paths (h : DeclaresModel objects manifest) {object : CloudObjectRef}
    (hobject : object ∈ objects) : object.key.val ∈ qwen3Embedding8bSnapshotPaths :=
  h.keys_perm.mem_iff.mp (List.mem_map_of_mem hobject)

theorem DeclaresModel.keys_nodup (h : DeclaresModel objects manifest) :
    (objects.map fun object => object.key.val).Nodup :=
  h.keys_perm.nodup_iff.mpr (by decide)

theorem DeclaresModel.exists_object (h : DeclaresModel objects manifest) {path : String}
    (hpath : path ∈ qwen3Embedding8bSnapshotPaths) :
    ∃ object ∈ objects, object.key.val = path := by
  have hkey := h.keys_perm.mem_iff.mpr hpath
  exact List.mem_map.mp hkey

/-- **The order decides.** The worker binds each path to its own key exactly when the one
key that ends like another path comes after it. -/
theorem DeclaresModel.bound_iff (h : DeclaresModel objects manifest) :
    (∀ expected ∈ manifest.objects, ∃ object,
      modelObjectFor objects expected.path = some object ∧ object.key.val = expected.path) ↔
      InWorkerOrder objects := by
  have hends : keyEndsWith "1_Pooling/config.json" "config.json" = true := by decide +kernel
  constructor
  · intro hbound
    have hconfig : "config.json" ∈ manifest.objects.map (·.path) := by
      rw [h.paths]
      decide
    obtain ⟨expected, hexpected, hpath⟩ := List.mem_map.mp hconfig
    obtain ⟨object, hfound, hkey⟩ := hbound expected hexpected
    obtain ⟨other, hother, hotherKey⟩ := h.exists_object
      (show "1_Pooling/config.json" ∈ qwen3Embedding8bSnapshotPaths by decide)
    have hmatches : keyEndsWith other.key.val expected.path = true := by
      rw [hotherKey, hpath]
      exact hends
    have hne : other.key.val ≠ object.key.val := by
      rw [hotherKey, hkey, hpath]
      decide
    have hfirst := sublist_of_modelObjectFor hfound hother hmatches hne
    rwa [hotherKey, hkey, hpath] at hfirst
  · intro horder expected hexpected
    have hpath : expected.path ∈ qwen3Embedding8bSnapshotPaths := by
      rw [← h.paths]
      exact List.mem_map_of_mem hexpected
    obtain ⟨own, hown, hownKey⟩ := h.exists_object hpath
    have hownMatches : keyEndsWith own.key.val expected.path = true := by
      rw [hownKey]
      exact keyEndsWith_self _
    cases hfound : modelObjectFor objects expected.path with
    | none => exact absurd hownMatches (by simpa using List.find?_eq_none.mp hfound own hown)
    | some object =>
      refine ⟨object, rfl, ?_⟩
      have hmatches : keyEndsWith object.key.val expected.path = true := by
        simpa using List.find?_some hfound
      rcases keyEndsWith_snapshotPath _ hpath _ (h.mem_paths (List.mem_of_find?_eq_some hfound))
        hmatches with hkey | ⟨hconfig, hpooling⟩
      · exact hkey
      · -- the object of the other directory was found first, against the order
        have hne : own.key.val ≠ object.key.val := by
          rw [hownKey, hconfig, hpooling]
          decide
        have hfirst := sublist_of_modelObjectFor hfound hown hownMatches hne
        rw [hownKey, hconfig, hpooling] at hfirst
        exact absurd horder (not_pair_sublist_swap h.keys_nodup hfirst)

/-- The order of the builder is one the worker resolves. -/
theorem DeclaresModel.sorted_inWorkerOrder (h : DeclaresModel objects manifest) :
    InWorkerOrder (sortModelObjectsForWorker objects) := by
  have hperm : (sortModelObjectsForWorker objects).Perm objects := sortBy_perm _ _
  have hkeys := (hperm.map fun object => object.key.val).trans h.keys_perm
  have hconfig := hkeys.mem_iff.mpr
    (show "config.json" ∈ qwen3Embedding8bSnapshotPaths by decide)
  have hpooling := hkeys.mem_iff.mpr
    (show "1_Pooling/config.json" ∈ qwen3Embedding8bSnapshotPaths by decide)
  rcases pair_sublist_or hconfig hpooling (by decide) with horder | hswapped
  · exact horder
  · -- the longer key does not come before the shorter one
    have hsorted : ((sortModelObjectsForWorker objects).map fun object => object.key.val).Pairwise
        fun key key' => toLex (key.utf8ByteSize, key) ≤ toLex (key'.utf8ByteSize, key') :=
      List.pairwise_map.mpr (sortBy_pairwise _ objects)
    have hpair := hsorted.sublist hswapped
    rw [List.pairwise_pair, Prod.Lex.toLex_le_toLex] at hpair
    exact absurd hpair (by decide)

/-- One file is bound to its object, in the root of the tree. -/
theorem DeclaresModel.bindModelObject_eq (h : DeclaresModel objects manifest) {tree : Tree File}
    (hverified : ∀ object ∈ objects, verifiedObject readers tree object = .ok ())
    {directory : Option String} (hdirectory : directory = none ∨ directory = some "")
    {expected : TeiArtifactObject} (hexpected : expected ∈ manifest.objects)
    {object : CloudObjectRef} (hfound : modelObjectFor objects expected.path = some object)
    (hkey : object.key.val = expected.path) :
    bindModelObject readers tree objects directory expected = .ok (some "") := by
  have hobject : object ∈ objects := List.mem_of_find?_eq_some hfound
  obtain ⟨declared, hdeclared, hdeclaredKey, hbytes, hsha⟩ := h.declared expected hexpected
  obtain rfl : declared = object := List.inj_on_of_nodup_map h.keys_nodup hdeclared hobject
    (hdeclaredKey.trans hkey.symm)
  have hhead : Text.stripEnding expected.path declared.key.val = some "" :=
    Text.stripEnding_eq_some.mpr (by rw [hkey, String.empty_append])
  have hsame : ¬ ∃ value ∈ directory, value ≠ Text.trimEnd '/' "" := by
    rintro ⟨value, hvalue, hne⟩
    rcases hdirectory with rfl | rfl
    · cases hvalue
    · cases hvalue
      exact hne rfl
  unfold bindModelObject
  refine bind_eq_ok.mpr ⟨declared, orThrow_eq_ok.mpr hfound, ?_⟩
  refine bind_eq_ok.mpr ⟨(), throwIf_eq_ok.mpr (by simp [hbytes, hsha]), ?_⟩
  refine bind_eq_ok.mpr ⟨(), hverified declared hobject, ?_⟩
  refine bind_eq_ok.mpr ⟨"", orThrow_eq_ok.mpr hhead, ?_⟩
  refine bind_eq_ok.mpr ⟨(), throwIf_eq_ok.mpr hsame, ?_⟩
  rcases hdirectory with rfl | rfl <;> rfl

theorem DeclaresModel.foldlM_bindModelObject (h : DeclaresModel objects manifest)
    {tree : Tree File}
    (hverified : ∀ object ∈ objects, verifiedObject readers tree object = .ok ())
    (horder : InWorkerOrder objects) {files : List TeiArtifactObject}
    (hfiles : files ⊆ manifest.objects) {directory : Option String}
    (hdirectory : directory = none ∨ directory = some "") :
    files.foldlM (bindModelObject readers tree objects) directory =
      .ok (if files = [] then directory else some "") := by
  induction files generalizing directory with
  | nil => rfl
  | cons expected files ih =>
    obtain ⟨hexpected, hfiles⟩ := List.cons_subset.mp hfiles
    obtain ⟨object, hfound, hkey⟩ := h.bound_iff.mpr horder expected hexpected
    rw [List.foldlM_cons, h.bindModelObject_eq hverified hdirectory hexpected hfound hkey]
    show files.foldlM (bindModelObject readers tree objects) (some "") = _
    rw [ih hfiles (Or.inr rfl), if_neg (List.cons_ne_nil _ _)]
    split <;> rfl

end Declared

/-- **The host.** A bundle it loads declares the model of the manifest it was loaded with. -/
theorem loadAndValidateBundle_declaresModel {prims : Primitives} {tree : Tree File}
    {bundle : RunpodEmbeddingBundle} {file : File} {manifest : TeiModelArtifactSetV1}
    (hload : loadAndValidateBundle prims readers tree = .ok bundle)
    (hfile : tree.file bundle.artifacts.modelManifest.object.key = some file)
    (hmanifest : parseTeiModelArtifactSetV1 readers file = .ok manifest) :
    DeclaresModel bundle.artifacts.modelObjects manifest := by
  unfold loadAndValidateBundle at hload
  -- the model objects are looked at last
  obtain ⟨read, -, hload⟩ := bind_eq_ok.mp hload
  obtain ⟨_, -, hload⟩ := bind_eq_ok.mp hload
  obtain ⟨_, -, hload⟩ := bind_eq_ok.mp hload
  obtain ⟨_, -, hload⟩ := bind_eq_ok.mp hload
  obtain ⟨_, -, hload⟩ := bind_eq_ok.mp hload
  obtain ⟨_, -, hload⟩ := bind_eq_ok.mp hload
  obtain ⟨_, -, hload⟩ := bind_eq_ok.mp hload
  obtain ⟨_, -, hload⟩ := bind_eq_ok.mp hload
  obtain ⟨readFile, hreadFile, hload⟩ := bind_eq_ok.mp hload
  obtain ⟨readManifest, hreadManifest, hload⟩ := bind_eq_ok.mp hload
  obtain ⟨_, -, hload⟩ := bind_eq_ok.mp hload
  obtain ⟨_, -, hload⟩ := bind_eq_ok.mp hload
  obtain ⟨_, -, hload⟩ := bind_eq_ok.mp hload
  obtain ⟨_, -, hload⟩ := bind_eq_ok.mp hload
  obtain ⟨_, -, hload⟩ := bind_eq_ok.mp hload
  obtain ⟨_, -, hload⟩ := bind_eq_ok.mp hload
  obtain ⟨_, -, hload⟩ := bind_eq_ok.mp hload
  obtain ⟨_, hlength, hload⟩ := bind_eq_ok.mp hload
  obtain ⟨_, hdeclared, hload⟩ := bind_eq_ok.mp hload
  obtain rfl : read = bundle := pure_eq_ok.mp hload
  rw [readRegularFile, orThrow_eq_ok, hfile] at hreadFile
  obtain rfl := Option.some.inj hreadFile
  rw [mapError_eq_ok, hmanifest] at hreadManifest
  obtain rfl := Except.ok.inj hreadManifest
  rw [throwIf_eq_ok, not_not] at hlength
  refine ⟨hlength, fun expected hexpected => ?_, ?_⟩
  · obtain ⟨object, hobject, hsame⟩ :=
      bind_eq_ok.mp (forM_eq_ok.mp hdeclared expected hexpected)
    rw [orThrow_eq_ok] at hobject
    rw [throwIf_eq_ok, not_or, not_not, not_not] at hsame
    exact ⟨object, List.mem_of_find?_eq_some hobject, by simpa using List.find?_some hobject,
      hsame⟩
  · obtain ⟨set, -, hset⟩ := bind_eq_ok.mp hmanifest
    obtain ⟨_, hvalid, hset⟩ := bind_eq_ok.mp hset
    obtain rfl : set = manifest := pure_eq_ok.mp hset
    exact TeiModelArtifactSetV1.paths_of_validate hvalid

/-- **Host and worker.** For a bundle the host loads, the worker binds every path of the
model manifest to the object of that key, and accepts every tree that holds the objects,
exactly when the root `config.json` comes before the one of the pooling directory. -/
theorem workerResolvesAlike_iff {prims : Primitives} {tree : Tree File}
    {bundle : RunpodEmbeddingBundle} {file : File} {manifest : TeiModelArtifactSetV1}
    (hload : loadAndValidateBundle prims readers tree = .ok bundle)
    (hfile : tree.file bundle.artifacts.modelManifest.object.key = some file)
    (hmanifest : parseTeiModelArtifactSetV1 readers file = .ok manifest) :
    WorkerResolvesAlike readers bundle manifest ↔
      InWorkerOrder bundle.artifacts.modelObjects := by
  have hdeclares := loadAndValidateBundle_declaresModel hload hfile hmanifest
  constructor
  · exact fun hresolves => hdeclares.bound_iff.mp hresolves.bound
  · intro horder
    refine ⟨hdeclares.bound_iff.mpr horder, fun staged policy hpolicy hverified => ?_⟩
    have hnonempty : manifest.objects ≠ [] := by
      intro hnil
      have hpaths := hdeclares.paths
      rw [hnil] at hpaths
      cases hpaths
    have hbind := hdeclares.foldlM_bindModelObject hverified horder
      (List.Subset.refl manifest.objects) (Or.inl rfl)
    rw [if_neg hnonempty] at hbind
    unfold validateModelTree
    rw [hpolicy]
    refine bind_eq_ok.mpr ⟨(), throwIf_eq_ok.mpr (not_not.mpr hdeclares.length), ?_⟩
    exact bind_eq_ok.mpr ⟨_, hbind, rfl⟩

end Agreement

/-! ### The checkpoint -/

/-- The digest that spells a number. -/
def sampleSha256 (n : ℕ) : Digest :=
  ⟨String.ofList ((List.range 64).map fun i => Nat.digitChar (n / 16 ^ (63 - i) % 16)), by
    have hdigit : ∀ k < 16, IsHexDigit (Nat.digitChar k) := by decide
    rw [IsDigest, String.toList_ofList]
    refine ⟨by simp, fun c hc => ?_⟩
    obtain ⟨i, -, rfl⟩ := List.mem_map.mp hc
    exact hdigit _ (Nat.mod_lt _ (by decide))⟩

/-- A file of the checkpoint, as the manifest and as a bundle list it. -/
def sampleModelFile (path : SafeRelativePath) (mediaType : String) (bytes : U64)
    (sha256 : Digest) : TeiArtifactObject × CloudObjectRef :=
  (⟨path.val, mediaType, bytes, sha256.val⟩, ⟨path, bytes, sha256⟩)

def sampleModelFiles : List (TeiArtifactObject × CloudObjectRef) := [
    sampleModelFile ⟨".gitattributes", by decide +kernel⟩ "text/plain" 1570
      (sampleSha256 0x34448b82c17d60fec9b65b1f093c115ddbaadc04beb1b0140b6bfed2e012a930),
    sampleModelFile ⟨"1_Pooling/config.json", by decide +kernel⟩ "application/json" 313
      (sampleSha256 0x2e1da26b3fd65cf7e370d2fabf28a8c59efa7edb525d1b8b50be8e5ca1048ea6),
    sampleModelFile ⟨"LICENSE", by decide +kernel⟩ "text/plain" 11343
      (sampleSha256 0x832dd9e00a68dd83b3c3fb9f5588dad7dcf337a0db50f7d9483f310cd292e92e),
    sampleModelFile ⟨"README.md", by decide +kernel⟩ "text/markdown" 17253
      (sampleSha256 0x1fd6f3583d642a3319efb3eb8c22b6aa6320e6ab92263447bd84fd92615206d4),
    sampleModelFile ⟨"config.json", by decide +kernel⟩ "application/json" 729
      (sampleSha256 0xdcccf7c7890c8debc4af8dace8d6acd8dd50bd56d50d4d8b60529381ba3de3d7),
    sampleModelFile ⟨"config_sentence_transformers.json", by decide +kernel⟩ "application/json" 215
      (sampleSha256 0x10667c72ddb772627bf1780cb7f86af8e2ae0032b8c243c731172064105c6961),
    sampleModelFile ⟨"generation_config.json", by decide +kernel⟩ "application/json" 117
      (sampleSha256 0x28396d421a2108acce96383f6a7de78008f7f1b17f807958f3c14c51dbfb65fb),
    sampleModelFile ⟨"merges.txt", by decide +kernel⟩ "text/plain" 1671853
      (sampleSha256 0x8831e4f1a044471340f7c0a83d7bd71306a5b867e95fd870f74d0c5308a904d5),
    sampleModelFile ⟨"model-00001-of-00004.safetensors", by decide +kernel⟩
      "application/vnd.safetensors" 4900037024
      (sampleSha256 0x99b343597fe840706146144699a8b9188dd3387e43eb61faf0231b70b249d451),
    sampleModelFile ⟨"model-00002-of-00004.safetensors", by decide +kernel⟩
      "application/vnd.safetensors" 4915959512
      (sampleSha256 0xdff635b0f6dbbaad2a2d633ef037ec0a39bc165cc1806c712fbd6fcbcb4526c0),
    sampleModelFile ⟨"model-00003-of-00004.safetensors", by decide +kernel⟩
      "application/vnd.safetensors" 4983067656
      (sampleSha256 0x30b1d4c53d84eb018f642cad7b373f0aabf79699872d8702c1f38577c0a59a2f),
    sampleModelFile ⟨"model-00004-of-00004.safetensors", by decide +kernel⟩
      "application/vnd.safetensors" 335570376
      (sampleSha256 0x36cbc9c60375693629f25743c1e77ebb1724af58e671b2376463193c7fd21ef6),
    sampleModelFile ⟨"model.safetensors.index.json", by decide +kernel⟩ "application/json" 30432
      (sampleSha256 0xceaf1429bfa18eecc75d079737e8d1fe8dc0627f5ec7e6a985514626d1ac6a77),
    sampleModelFile ⟨"modules.json", by decide +kernel⟩ "application/json" 349
      (sampleSha256 0x84e40c8e006c9b1d6c122e02cba9b02458120b5fb0c87b746c41e0207cf642cf),
    sampleModelFile ⟨"tokenizer.json", by decide +kernel⟩ "application/json" 11422947
      (sampleSha256 0x83cdf8c3a34f68862319cb1810ee7b1e2c0a44e0864ae930194ddb76bb7feb8d),
    sampleModelFile ⟨"tokenizer_config.json", by decide +kernel⟩ "application/json" 7256
      (sampleSha256 0x2f58f4bbd7bbce15d683f525954ef3a92cd82f5e06415a9c513859bf8ab72436),
    sampleModelFile ⟨"vocab.json", by decide +kernel⟩ "application/json" 2776833
      (sampleSha256 0xca10d7e9fb3ed18575dd1e277a2579c16d108e32f27439684afa0e10b1440910)]

def sampleModelSet : TeiModelArtifactSetV1 where
  schemaVersion := teiModelArtifactSetSchemaV1
  repository := qwen3Embedding8bRepository
  revision := qwen3Embedding8bRevision
  objects := sampleModelFiles.map Prod.fst

/-- The objects in the order of the manifest, or with the longer keys last. -/
def sampleModelObjects (sorted : Bool) : List CloudObjectRef :=
  let objects := sampleModelFiles.map Prod.snd
  if sorted then objects.filter (fun object => object.key.val.length ≤ 20) ++
    objects.filter (fun object => 20 < object.key.val.length) else objects

def sampleModelArtifacts (sorted : Bool) : RunpodBundleArtifacts :=
  { sampleArtifacts with modelObjects := sampleModelObjects sorted }

def sampleModelBundle (sorted : Bool) : RunpodEmbeddingBundle :=
  { sampleBundleDraft true with artifacts := sampleModelArtifacts sorted }.withDigest
    samplePrimitives

theorem sampleModelArtifacts_valid (sorted : Bool) :
    validateArtifacts (sampleModelArtifacts sorted) sampleManifest samplePlan = .ok () := by
  have hobjects : ((sampleModelObjects sorted).foldlM validateModelObject []).isOk = true := by
    cases sorted <;> decide +kernel
  obtain ⟨keys, hkeys⟩ := isOk_iff.mp hobjects
  have hnonempty : sampleModelObjects sorted ≠ [] := by cases sorted <;> decide +kernel
  simp only [validateArtifacts, bind_eq_ok, exists_unit, forM_eq_ok, throwIf_eq_ok, not_or,
    not_not, pure_eq_ok]
  exact ⟨by cases sorted <;> decide +kernel, rfl, rfl, rfl,
    ⟨rfl, rfl, rfl, rfl, rfl, rfl, rfl, hnonempty, rfl, rfl⟩, by cases sorted <;> decide +kernel,
    by cases sorted <;> decide +kernel, keys, hkeys, trivial⟩

/-- An entry is found by its key where the keys are distinct. -/
theorem find?_of_nodup_map {α κ : Type} [DecidableEq κ] {key : α → κ} {entries : List α}
    (hnodup : (entries.map key).Nodup) {entry : α} (hentry : entry ∈ entries) :
    entries.find? (fun other => key other = key entry) = some entry := by
  cases hfound : entries.find? (fun other => key other = key entry) with
  | none =>
    have hnone := List.find?_eq_none.mp hfound entry hentry
    simp at hnone
  | some other =>
    have hkey : key other = key entry := by simpa using List.find?_some hfound
    rw [List.inj_on_of_nodup_map hnodup (List.mem_of_find?_eq_some hfound) hentry hkey]

/-- Both orders have the objects of the manifest. -/
theorem sampleModelObjects_perm (sorted : Bool) :
    (sampleModelObjects sorted).Perm (sampleModelFiles.map Prod.snd) := by
  cases sorted with
  | false => exact .refl _
  | true =>
    have hlong : ∀ object : CloudObjectRef,
        decide (20 < object.key.val.length) = !decide (object.key.val.length ≤ 20) :=
      fun object => by rw [← decide_not, decide_eq_decide, not_le]
    rw [sampleModelObjects]
    simp only [if_true, hlong]
    exact List.filter_append_perm _ _

theorem isSafeRelativePath_queryManifest : IsSafeRelativePath "query-vectors/manifest.json" := by
  decide

theorem isSafeRelativePath_queryPlan : IsSafeRelativePath "query-vectors/queries.jsonl" := by
  decide

theorem isSafeRelativePath_queryVectors : IsSafeRelativePath "query-vectors/vectors.f32le" := by
  decide

def sampleQueryKeys : List SafeRelativePath :=
  [⟨"query-vectors/manifest.json", isSafeRelativePath_queryManifest⟩,
    ⟨"query-vectors/queries.jsonl", isSafeRelativePath_queryPlan⟩,
    ⟨"query-vectors/vectors.f32le", isSafeRelativePath_queryVectors⟩]

theorem sampleModelKeys_perm (sorted : Bool) :
    (sampleQueryKeys ++ artifactKeys (sampleModelArtifacts sorted)).Perm
      (sampleQueryKeys ++ artifactKeys (sampleModelArtifacts false)) :=
  (((((sampleModelObjects_perm sorted).map (·.key)).append_left _).append_right _)).append_left _

/-- The artifacts of the bundle start with other characters than the outputs of its tasks. -/
theorem sampleModelKeys_nodup (sorted : Bool) :
    (sampleQueryKeys ++ artifactKeys (sampleModelArtifacts sorted)).Nodup ∧
      ∀ key ∈ sampleQueryKeys ++ artifactKeys (sampleModelArtifacts sorted),
        key.val.toList.head? ≠ some 'p' ∧ key.val.toList.head? ≠ some 'r' ∧ key ≠ bundleJson := by
  have hfalse : (sampleQueryKeys ++ artifactKeys (sampleModelArtifacts false)).Nodup ∧
      ∀ key ∈ sampleQueryKeys ++ artifactKeys (sampleModelArtifacts false),
        key.val.toList.head? ≠ some 'p' ∧ key.val.toList.head? ≠ some 'r' ∧ key ≠ bundleJson := by
    decide +kernel
  refine ⟨(sampleModelKeys_perm sorted).nodup_iff.mpr hfalse.1, fun key hkey => ?_⟩
  exact hfalse.2 key ((sampleModelKeys_perm sorted).mem_iff.mp hkey)

theorem sampleModelBundle_keys_nodup (sorted : Bool) : (sampleModelBundle sorted).keys.Nodup := by
  have hinputs := sampleModelKeys_nodup sorted
  have hkeys : (sampleModelBundle sorted).keys =
      sampleQueryKeys ++ artifactKeys (sampleModelArtifacts sorted) ++
      (sampleAssignment true).tasks.flatMap RunpodExpectedTaskOutput.keys :=
    congrArg _ (List.flatMap_singleton ..)
  rw [hkeys, List.nodup_append]
  refine ⟨hinputs.1, (sampleAssignment_accepted true).keys_nodup, ?_⟩
  rintro key hkey other hother rfl
  rcases sampleAssignment_outputs true key hother with h | h
  · exact (hinputs.2 key hkey).1 h
  · exact (hinputs.2 key hkey).2.1 h

theorem sampleModelBundle_accepted (sorted : Bool) :
    (sampleModelBundle sorted).validateAgainst samplePrimitives sampleManifest samplePlan =
      .ok () := by
  simp only [RunpodEmbeddingBundle.validateAgainst, RunpodExpectedQueryVectorOutput.validate,
    bind_eq_ok, exists_unit, throwIf_eq_ok, orThrow_eq_ok, Seen.insertAll_eq_some,
    Seen.fresh_empty, not_or, not_not, RunpodEmbeddingBundle.componentDigest_eq, Except.ok.injEq,
    exists_eq_left', requireSafeU64_eq_ok]
  exact ⟨sampleManifest_validate, samplePlan_validateManifestBinding,
    show 3 ≤ maxSafeJsonInteger by decide, show 5 ≤ maxSafeJsonInteger by decide,
    ⟨rfl, rfl, rfl, rfl, rfl, rfl, rfl, rfl, rfl, List.cons_ne_nil _ _⟩, sampleExecution_valid,
    ⟨rfl, rfl, rfl, rfl⟩, ⟨rfl, rfl, rfl, rfl⟩, sampleModelArtifacts_valid sorted,
    validateAssignments_eq_ok.mpr (sampleAssignments_accepted true), _,
    ⟨sampleModelBundle_keys_nodup sorted, rfl⟩, RunpodEmbeddingBundle.digest_withDigest _ _⟩

/-- A file is what the bundle says of it. -/
def sampleModelReaders (sorted : Bool) : BundleReaders CloudObjectRef where
  size file := file.bytes
  sha256 file := file.sha256
  bundle _ := some (sampleModelBundle sorted)
  prepared _ := some sampleManifest
  plan _ := some samplePlan
  policy _ := some
    { modelArtifactSetSha256 := qwen3Embedding8bArtifactSetSha256
      conformanceFixture := ⟨"fixture.json", "application/json", 1, (hexDigest 1).val⟩
      executableTokenizer := ⟨"tokenizer.json", "application/json", 1, (hexDigest 1).val⟩
      modelObjects := sampleModelSet.objects }
  modelSet _ := some sampleModelSet
  modelSetSha256 _ := qwen3Embedding8bArtifactSetSha256
  tokenCounts _ _ _ := .ok ()
  queryPlan _ := .ok ()

def sampleModelTree (sorted : Bool) : Tree CloudObjectRef where
  file path := if path = bundleJson then some ⟨bundleJson, 1, hexDigest 1⟩ else
    (inputObjects (sampleModelArtifacts sorted)).find? fun object => object.key = path
  directory _ := false

theorem validSha256_sampleSha256 {n : ℕ} (h : n / 16 ^ 63 % 16 ≠ 0) :
    validSha256 (sampleSha256 n).val = true := by
  have hdigit : ∀ k < 16, k ≠ 0 → Nat.digitChar k ≠ '0' := by decide
  refine decide_eq_true ⟨(sampleSha256 n).property, Nat.digitChar (n / 16 ^ 63 % 16), ?_,
    hdigit _ (Nat.mod_lt _ (by decide)) h⟩
  rw [sampleSha256, String.toList_ofList]
  exact List.mem_map.mpr ⟨0, List.mem_range.mpr (by decide), rfl⟩

theorem validateArtifact_sampleModelFile {path : SafeRelativePath} {mediaType : String}
    {bytes : U64} {n : ℕ} (hmedia : mediaType ≠ "")
    (hbytes : (bytes : ℕ) ≠ 0 ∧ (bytes : ℕ) ≤ maxSafeJsonInteger) (hn : n / 16 ^ 63 % 16 ≠ 0) :
    validateArtifact (sampleModelFile path mediaType bytes (sampleSha256 n)).1 = .ok () := by
  refine throwIf_eq_ok.mpr ?_
  rintro (hpath | hblank | hzero | hlarge | hsha256)
  · exact hpath path.property
  · exact hmedia hblank
  · exact hbytes.1 hzero
  · exact Nat.not_lt.mpr hbytes.2 hlarge
  · rw [sampleModelFile, validSha256_sampleSha256 hn] at hsha256
    cases hsha256

theorem sampleModelFiles_valid : ∀ file ∈ sampleModelFiles, validateArtifact file.1 = .ok () := by
  intro file hfile
  simp only [sampleModelFiles, List.mem_cons, List.not_mem_nil, or_false] at hfile
  rcases hfile with rfl | rfl | rfl | rfl | rfl | rfl | rfl | rfl | rfl | rfl | rfl | rfl | rfl |
    rfl | rfl | rfl | rfl
  all_goals exact validateArtifact_sampleModelFile (by decide) (by decide) (by decide)

theorem sampleModelSet_validate (sorted : Bool) :
    sampleModelSet.validate (sampleModelReaders sorted) = .ok () := by
  have hpaths : ∀ entry ∈ sampleModelSet.objects.zip qwen3Embedding8bSnapshotPaths,
      entry.1.path = entry.2 := by
    decide
  refine bind_eq_ok.mpr ⟨(), rfl, bind_eq_ok.mpr ⟨(), forM_eq_ok.mpr fun entry hentry => ?_, rfl⟩⟩
  obtain ⟨file, hfile, hobject⟩ := List.mem_map.mp (List.of_mem_zip hentry).1
  refine bind_eq_ok.mpr ⟨(), ?_, throwIf_eq_ok.mpr (not_not.mpr (hpaths entry hentry))⟩
  rw [← hobject]
  exact sampleModelFiles_valid file hfile

theorem sampleModelTree_file (sorted : Bool) : ∀ object ∈ inputObjects (sampleModelArtifacts sorted),
    object.validate = .ok () ∧ (sampleModelTree sorted).file object.key = some object := by
  have hvalid : ∀ object ∈ inputObjects (sampleModelArtifacts sorted),
      object.validate = .ok () := by
    cases sorted <;> decide +kernel
  have hkeys : (inputObjects (sampleModelArtifacts sorted)).map (·.key) =
      artifactKeys (sampleModelArtifacts sorted) := by
    simp only [inputObjects, artifactKeys, List.map_append, List.map_map, List.map_cons,
      List.map_nil, Function.comp_def]
  obtain ⟨hnodup, hother⟩ := sampleModelKeys_nodup sorted
  have hdistinct := (List.nodup_append.mp hnodup).2.1
  rw [← hkeys] at hdistinct
  intro object hobject
  have hkey : object.key ∈ artifactKeys (sampleModelArtifacts sorted) :=
    hkeys ▸ List.mem_map_of_mem hobject
  refine ⟨hvalid object hobject, ?_⟩
  exact (if_neg (hother _ (List.mem_append_right _ hkey)).2.2).trans
    (find?_of_nodup_map hdistinct hobject)

/-- Every file of the manifest is declared. -/
theorem sampleModelSet_declared (sorted : Bool) : ∀ expected ∈ sampleModelSet.objects,
    validateDeclaredObject (sampleModelObjects sorted) expected = .ok () := by
  have hsame : ∀ file ∈ sampleModelFiles, file.1.path = file.2.key.val ∧
      file.2.bytes = file.1.bytes ∧ file.2.sha256.val = file.1.sha256 := by
    intro file hfile
    simp only [sampleModelFiles, List.mem_cons, List.not_mem_nil, or_false] at hfile
    rcases hfile with rfl | rfl | rfl | rfl | rfl | rfl | rfl | rfl | rfl | rfl | rfl | rfl |
      rfl | rfl | rfl | rfl | rfl
    all_goals exact ⟨rfl, rfl, rfl⟩
  have hkeys : ((sampleModelObjects sorted).map fun object => object.key.val).Nodup := by
    have hnodup := (List.nodup_append.mp (sampleModelKeys_nodup sorted).1).2.1
    have hobjects := (List.nodup_append.mp (List.nodup_append.mp hnodup).1).2.1
    have hvalues := hobjects.map Subtype.val_injective
    rwa [List.map_map] at hvalues
  intro expected hexpected
  obtain ⟨file, hfile, rfl⟩ := List.mem_map.mp hexpected
  obtain ⟨hpath, hbytes, hsha256⟩ := hsame file hfile
  have hmem : file.2 ∈ sampleModelObjects sorted :=
    (sampleModelObjects_perm sorted).mem_iff.mpr (List.mem_map_of_mem hfile)
  refine bind_eq_ok.mpr ⟨file.2, orThrow_eq_ok.mpr ?_, throwIf_eq_ok.mpr ?_⟩
  · rw [hpath]
    exact find?_of_nodup_map hkeys hmem
  · rw [not_or, not_not, not_not]
    exact ⟨hbytes, hsha256⟩

/-- The host loads the bundle, in either order. -/
theorem sampleModelBundle_loads (sorted : Bool) :
    loadAndValidateBundle samplePrimitives (sampleModelReaders sorted) (sampleModelTree sorted) =
      .ok (sampleModelBundle sorted) := by
  have hfile : ∀ object ∈ inputObjects (sampleModelBundle sorted).artifacts,
      readRegularFile (sampleModelTree sorted) object.key = .ok object := fun object hobject =>
    orThrow_eq_ok.mpr (sampleModelTree_file sorted object hobject).2
  have hobjects : ∀ object ∈ inputObjects (sampleModelBundle sorted).artifacts,
      (object.bytes : ℕ) ≠ 0 →
      objectForFile (sampleModelReaders sorted) (sampleModelTree sorted) object.key =
        .ok object := by
    intro object hobject hbytes
    rw [objectForFile, hfile object hobject]
    exact throwIf_bind_of_not hbytes
  have hinputs : validateInputFiles samplePrimitives (sampleModelReaders sorted)
      (sampleModelTree sorted) (sampleModelBundle sorted) sampleManifest samplePlan = .ok () := by
    refine bind_eq_ok.mpr ⟨(), sampleModelBundle_accepted sorted, forM_eq_ok.mpr ?_⟩
    intro object hobject
    obtain ⟨hvalid, hfile⟩ := sampleModelTree_file sorted object hobject
    refine bind_eq_ok.mpr ⟨(), hvalid, bind_eq_ok.mpr ⟨object, orThrow_eq_ok.mpr hfile, ?_⟩⟩
    exact bind_eq_ok.mpr ⟨(), throwIf_eq_ok.mpr (not_not.mpr rfl),
      throwIf_eq_ok.mpr (not_not.mpr rfl)⟩
  have hmanifest (file : CloudObjectRef) :
      parseTeiModelArtifactSetV1 (sampleModelReaders sorted) file = .ok sampleModelSet :=
    bind_eq_ok.mpr ⟨sampleModelSet, rfl,
      bind_eq_ok.mpr ⟨(), sampleModelSet_validate sorted, rfl⟩⟩
  -- the files of the bundle, each read back as what the bundle lists
  have hbundle : readRegularFile (sampleModelTree sorted) bundleJson =
      .ok ⟨bundleJson, 1, hexDigest 1⟩ :=
    orThrow_eq_ok.mpr (by simp [sampleModelTree])
  have hcomponent : ∀ artifact ∈ (sampleModelBundle sorted).artifacts.components,
      artifact.object ∈ inputObjects (sampleModelBundle sorted).artifacts := fun artifact h =>
    List.mem_append_left _ (List.mem_append_left _ (List.mem_append_left _
      (List.mem_map_of_mem h)))
  have hfixture : (sampleModelBundle sorted).artifacts.conformanceFixture ∈
      inputObjects (sampleModelBundle sorted).artifacts := by
    simp [inputObjects]
  have hqueryPlan : (sampleModelBundle sorted).artifacts.queryPlan ∈
      inputObjects (sampleModelBundle sorted).artifacts := by
    simp [inputObjects]
  have hlength : (sampleModelObjects sorted).length = sampleModelSet.objects.length := by
    rw [(sampleModelObjects_perm sorted).length_eq, sampleModelSet, List.length_map,
      List.length_map]
  unfold loadAndValidateBundle
  refine bind_eq_ok.mpr ⟨sampleModelBundle sorted, bind_eq_ok.mpr ⟨_, hbundle, rfl⟩, ?_⟩
  refine bind_eq_ok.mpr ⟨sampleManifest, bind_eq_ok.mpr ⟨_, hfile _ (hcomponent _
    (by simp [RunpodBundleArtifacts.components])), rfl⟩, ?_⟩
  refine bind_eq_ok.mpr ⟨samplePlan, bind_eq_ok.mpr ⟨_, hfile _ (hcomponent _
    (by simp [RunpodBundleArtifacts.components])), rfl⟩, ?_⟩
  refine bind_eq_ok.mpr ⟨(), mapError_eq_ok.mpr samplePlan_validateManifestBinding, ?_⟩
  refine bind_eq_ok.mpr ⟨(), mapError_eq_ok.mpr hinputs, ?_⟩
  refine bind_eq_ok.mpr ⟨(), rfl, ?_⟩
  refine bind_eq_ok.mpr ⟨_, hfile _ (hcomponent _
    (by simp [RunpodBundleArtifacts.components])), ?_⟩
  refine bind_eq_ok.mpr ⟨_, rfl, ?_⟩
  refine bind_eq_ok.mpr ⟨_, hfile _ (hcomponent _
    (by simp [RunpodBundleArtifacts.components])), ?_⟩
  refine bind_eq_ok.mpr ⟨sampleModelSet, mapError_eq_ok.mpr (hmanifest _), ?_⟩
  refine bind_eq_ok.mpr ⟨(), throwIf_eq_ok.mpr (not_not.mpr rfl), ?_⟩
  refine bind_eq_ok.mpr ⟨_, hobjects _ hfixture (show 1 ≠ 0 by decide), ?_⟩
  refine bind_eq_ok.mpr ⟨(), throwIf_eq_ok.mpr ?_, ?_⟩
  · rw [not_or, not_or, not_not, not_not, not_not]
    exact ⟨rfl, rfl, rfl⟩
  refine bind_eq_ok.mpr ⟨_, hfile _ hqueryPlan, ?_⟩
  refine bind_eq_ok.mpr ⟨(), rfl, ?_⟩
  refine bind_eq_ok.mpr ⟨_, hobjects _ (hcomponent _
    (by simp [RunpodBundleArtifacts.components])) (show 1 ≠ 0 by decide), ?_⟩
  refine bind_eq_ok.mpr ⟨(), throwIf_eq_ok.mpr ?_, ?_⟩
  · rw [not_or, not_not, not_not]
    exact ⟨rfl, rfl⟩
  refine bind_eq_ok.mpr ⟨(), throwIf_eq_ok.mpr (not_not.mpr hlength), ?_⟩
  exact bind_eq_ok.mpr ⟨(), forM_eq_ok.mpr (sampleModelSet_declared sorted), rfl⟩

/-- A bundle whose objects stand in the order of the manifest is loaded by the host, and the
worker does not resolve it. -/
theorem manifest_order_not_resolved :
    loadAndValidateBundle samplePrimitives (sampleModelReaders false) (sampleModelTree false) =
      .ok (sampleModelBundle false) ∧
    ¬ WorkerResolvesAlike (sampleModelReaders false) (sampleModelBundle false)
      sampleModelSet := by
  refine ⟨sampleModelBundle_loads false, fun hresolves => ?_⟩
  have hmem : sampleModelFiles[4].1 ∈ sampleModelSet.objects :=
    List.mem_map_of_mem (List.getElem_mem _)
  obtain ⟨object, hfound, hkey⟩ := hresolves.bound _ hmem
  have hother : (modelObjectFor (sampleModelObjects false) "config.json").map
      (fun object => object.key.val) = some "1_Pooling/config.json" := by
    decide +kernel
  have hconfig : sampleModelFiles[4].1.path = "config.json" := rfl
  rw [hconfig] at hfound hkey
  have hfound' : modelObjectFor (sampleModelObjects false) "config.json" = some object := hfound
  rw [hfound', Option.map_some, hkey] at hother
  exact absurd (Option.some.inj hother) (by decide)

/-- With the longer keys last, the worker resolves the bundle. -/
theorem sorted_order_resolved :
    WorkerResolvesAlike (sampleModelReaders true) (sampleModelBundle true) sampleModelSet := by
  have hfile := sampleModelTree_file true (sampleModelArtifacts true).modelManifest.object
    (by simp [inputObjects, RunpodBundleArtifacts.components])
  have hmanifest : parseTeiModelArtifactSetV1 (sampleModelReaders true)
      (sampleModelArtifacts true).modelManifest.object = .ok sampleModelSet :=
    bind_eq_ok.mpr ⟨sampleModelSet, rfl, bind_eq_ok.mpr ⟨(), sampleModelSet_validate true, rfl⟩⟩
  refine (workerResolvesAlike_iff (sampleModelBundle_loads true) hfile.2 hmanifest).mpr ?_
  show InWorkerOrder (sampleModelObjects true)
  decide +kernel

end LivefireRag.Launch
