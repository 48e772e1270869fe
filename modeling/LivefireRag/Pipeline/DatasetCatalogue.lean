import LivefireRag.Lib.Grouping
import LivefireRag.Lib.Seen
import LivefireRag.Pipeline.Basic

/-!
# The dataset catalogue

A catalogue lists datasets that are searched together, in ascending order of their ids. A
relation may be included by several of them only if the catalogue says so: every such
overlap is recorded with the datasets that own the relation and a reason, and nothing else
is.

The validator collects the owners of each relation in the order of the entries
(`relationOwners`) and goes through the recorded allowances. For datasets in order, what it
accepts is exactly a record of the overlaps, each with its owners
(`validateOverlapAllowances_eq_ok`), and this is what a valid catalogue holds
(`DatasetCatalogue.validate_overlaps`).
-/

namespace LivefireRag.Pipeline

open Fallible Machine Grouping Seen

def datasetCatalogueSchema := "livefire.rag.dataset-catalogue/1"

inductive CatalogueMode where
  | normal
  | testOnly
  deriving DecidableEq

instance : ToJson CatalogueMode := ⟨fun
  | .normal => .string "normal"
  | .testOnly => .string "test_only"⟩

structure CatalogueArtifactRef where
  path : SafeRelativePath
  component : ComponentRef
  deriving DecidableEq

-- the fields of the component stand beside the path
instance : ToJson CatalogueArtifactRef :=
  ⟨fun artifact => .mkObject (("path", toJson artifact.path) :: artifact.component.fields)⟩

structure CatalogueDatasetEntry where
  dataset : DatasetIdentity
  datasetSha256 : Digest
  projectionPolicy : ComponentRef
  preparedCorpus : CatalogueArtifactRef
  embeddingPlan : CatalogueArtifactRef
  embeddingResultSet : CatalogueArtifactRef
  embeddingProfile : ComponentRef
  finalIndex : CatalogueArtifactRef
  searchableDocumentCount : U64
  searchableReferenceCount : U64
  testOnly : Bool
  deriving DecidableEq

instance : ToJson CatalogueDatasetEntry := ⟨fun entry => .mkObject
  [("dataset", toJson entry.dataset), ("dataset_sha256", toJson entry.datasetSha256),
    ("projection_policy", toJson entry.projectionPolicy),
    ("prepared_corpus", toJson entry.preparedCorpus),
    ("embedding_plan", toJson entry.embeddingPlan),
    ("embedding_result_set", toJson entry.embeddingResultSet),
    ("embedding_profile", toJson entry.embeddingProfile),
    ("final_index", toJson entry.finalIndex),
    ("searchable_document_count", toJson entry.searchableDocumentCount),
    ("searchable_reference_count", toJson entry.searchableReferenceCount),
    ("test_only", .bool entry.testOnly)]⟩

structure RelationOverlapAllowance where
  relation : String
  datasetIds : List String
  reason : String
  deriving DecidableEq

instance : ToJson RelationOverlapAllowance := ⟨fun allowance => .mkObject
  [("relation", toJson allowance.relation), ("dataset_ids", toJson allowance.datasetIds),
    ("reason", toJson allowance.reason)]⟩

structure DatasetCatalogue where
  schemaVersion : String
  componentSha256 : Digest
  mode : CatalogueMode
  sourceSnapshot : ComponentRef
  mapping : ComponentRef
  projectionPolicy : ComponentRef
  embeddingProfile : ComponentRef
  queryCompatibility : String
  rankMerge : String
  datasets : List CatalogueDatasetEntry
  allowedRelationOverlaps : List RelationOverlapAllowance
  deriving DecidableEq

instance : ToJson DatasetCatalogue := ⟨fun catalogue => sealedObject catalogue.componentSha256
  [("schema_version", toJson catalogue.schemaVersion), ("mode", toJson catalogue.mode),
    ("source_snapshot", toJson catalogue.sourceSnapshot), ("mapping", toJson catalogue.mapping),
    ("projection_policy", toJson catalogue.projectionPolicy),
    ("embedding_profile", toJson catalogue.embeddingProfile),
    ("query_compatibility", toJson catalogue.queryCompatibility),
    ("rank_merge", toJson catalogue.rankMerge), ("datasets", toJson catalogue.datasets),
    ("allowed_relation_overlaps", toJson catalogue.allowedRelationOverlaps)]⟩

/-! ### Overlaps -/

/-- The owners of each relation, with those of one more dataset. -/
def addOwner (owners : SortedMap String (List String)) (entry : CatalogueDatasetEntry) :
    SortedMap String (List String) :=
  entry.dataset.includedRelations.foldl
    (fun owners relation => upsert (· ++ ·) owners (relation, [entry.dataset.id])) owners

/-- The relations that have more than one owner. -/
def actualOverlaps (relationOwners : SortedMap String (List String)) :
    SortedMap String (List String) :=
  SortedMap.ofList (relationOwners.entries.filter fun entry => 1 < entry.2.length)

/-- One allowance: it comes after the one before it, and covers an overlap. -/
def validateAllowance (overlaps : SortedMap String (List String)) (datasetIds : List String)
    (previousRelation : Option String) (allowance : RelationOverlapAllowance) :
    Result (Option String) := do
  requireText allowance.relation
  requireText allowance.reason
  throwIf ((∃ previous ∈ previousRelation, allowance.relation ≤ previous) ∨
      allowance.datasetIds.length < 2 ∨ (∃ id ∈ allowance.datasetIds, id = "") ∨
      ¬ allowance.datasetIds.IsChain (· < ·) ∨ ∃ id ∈ allowance.datasetIds, id ∉ datasetIds)
    (.invalid "relation overlap allowance")
  let owners ← orThrow (overlaps.get? allowance.relation)
    (.invalid "unnecessary relation overlap allowance")
  throwIf (owners.length ≠ allowance.datasetIds.length ∨
      ∃ pair ∈ owners.zip allowance.datasetIds, pair.1 ≠ pair.2)
    (.invalid "relation overlap allowance coverage")
  return some allowance.relation

def validateOverlapAllowances (allowances : List RelationOverlapAllowance)
    (relationOwners : SortedMap String (List String)) (datasetIds : List String) :
    Result Unit := do
  let overlaps := actualOverlaps relationOwners
  let _ ← allowances.foldlM (validateAllowance overlaps datasetIds) none
  throwIf (allowances.length ≠ overlaps.size) (.invalid "unapproved relation overlap")

/-! ### Catalogues -/

/-- What the entries of a catalogue have used so far. -/
structure CatalogueScan where
  datasetIds : List String
  artifactPaths : List SafeRelativePath
  relationOwners : SortedMap String (List String)
  previousDatasetId : Option String

def CatalogueDatasetEntry.artifacts (entry : CatalogueDatasetEntry) : List CatalogueArtifactRef :=
  [entry.preparedCorpus, entry.embeddingPlan, entry.embeddingResultSet, entry.finalIndex]

def validateArtifact (paths : List SafeRelativePath) (artifact : CatalogueArtifactRef) :
    Result (List SafeRelativePath) := do
  artifact.component.validate
  orThrow (insertNew paths artifact.path) (.invalid "duplicate catalogue artifact path")

variable (prims : Primitives)

def DatasetCatalogue.validateEntry (catalogue : DatasetCatalogue) (scan : CatalogueScan)
    (entry : CatalogueDatasetEntry) : Result CatalogueScan := do
  entry.dataset.validate
  requireSafeU64 entry.searchableDocumentCount
  requireSafeU64 entry.searchableReferenceCount
  throwIf (entry.dataset.includedRelations = [] ∨ entry.searchableDocumentCount = 0 ∨
      entry.searchableReferenceCount = 0 ∨
      entry.searchableReferenceCount < entry.searchableDocumentCount ∨
      (∃ previous ∈ scan.previousDatasetId, entry.dataset.id ≤ previous) ∨
      entry.dataset.id ∈ scan.datasetIds ∨
      entry.datasetSha256 ≠ canonicalDigest prims (toJson entry.dataset) ∨
      entry.dataset.sourceSnapshot ≠ catalogue.sourceSnapshot ∨
      entry.dataset.mapping ≠ catalogue.mapping ∨
      entry.projectionPolicy ≠ catalogue.projectionPolicy ∨
      entry.embeddingProfile ≠ catalogue.embeddingProfile ∨
      (catalogue.mode = .normal ∧ entry.testOnly) ∨
      (catalogue.mode = .testOnly ∧ ¬ entry.testOnly))
    (.invalid "dataset catalogue entry binding")
  let paths ← entry.artifacts.foldlM validateArtifact scan.artifactPaths
  return ⟨entry.dataset.id :: scan.datasetIds, paths, addOwner scan.relationOwners entry,
    some entry.dataset.id⟩

def DatasetCatalogue.validate (catalogue : DatasetCatalogue) : Result Unit := do
  throwIf (catalogue.schemaVersion ≠ datasetCatalogueSchema ∨
      catalogue.queryCompatibility ≠ "single_embedding_profile" ∨
      catalogue.rankMerge ≠ "reciprocal_rank_fusion_v1" ∨ catalogue.datasets = [])
    (.invalid "dataset catalogue contract")
  catalogue.sourceSnapshot.validate
  catalogue.mapping.validate
  catalogue.projectionPolicy.validate
  catalogue.embeddingProfile.validate
  let scan ← catalogue.datasets.foldlM (catalogue.validateEntry prims)
    ⟨[], [], SortedMap.empty, none⟩
  validateOverlapAllowances catalogue.allowedRelationOverlaps scan.relationOwners scan.datasetIds
  let digest ← componentDigest prims (toJson catalogue)
  throwIf (catalogue.componentSha256 ≠ digest) (.invalid "dataset catalogue component digest")

/-! ### The owners of a relation -/

section Owners

variable {datasets : List CatalogueDatasetEntry} {relation : String}

/-- The datasets that include a relation, in the order of the entries. -/
def ownersOf (datasets : List CatalogueDatasetEntry) (relation : String) : List String :=
  (datasets.filter fun entry => relation ∈ entry.dataset.includedRelations).map (·.dataset.id)

def relationOwners (datasets : List CatalogueDatasetEntry) : SortedMap String (List String) :=
  datasets.foldl addOwner SortedMap.empty

/-- The relations that more than one dataset includes, in order. -/
def overlappingRelations (datasets : List CatalogueDatasetEntry) : List String :=
  (actualOverlaps (relationOwners datasets)).keys

/-- Datasets with names and valid relations, in ascending order of their ids. -/
structure OrderedDatasets (datasets : List CatalogueDatasetEntry) : Prop where
  named : ∀ entry ∈ datasets, requireText entry.dataset.id = .ok ()
  relations : ∀ entry ∈ datasets, requireSortedUnique entry.dataset.includedRelations = .ok ()
  ordered : datasets.Pairwise (·.dataset.id < ·.dataset.id)

/-- Each relation of each dataset, with what stands for the dataset as its owner. -/
def ownerships {α : Type} (own : String → α) (datasets : List CatalogueDatasetEntry) :
    List (String × α) :=
  datasets.flatMap fun entry =>
    entry.dataset.includedRelations.map fun relation => (relation, own entry.dataset.id)

theorem relationOwners_eq (datasets : List CatalogueDatasetEntry) :
    relationOwners datasets = collect (· ++ ·) (ownerships (fun id => [id]) datasets) := by
  rw [relationOwners, collect, ownerships, List.foldl_flatMap]
  congr 1
  funext owners entry
  rw [addOwner, List.foldl_map]

theorem valuesOf_relations {α : Type} {relations : List String} (h : relations.Nodup)
    (owner : α) : valuesOf relation (relations.map fun relation => (relation, owner)) =
      if relation ∈ relations then [owner] else [] := by
  induction relations with
  | nil => rfl
  | cons first relations ih =>
    obtain ⟨hnew, hnodup⟩ := List.nodup_cons.mp h
    rw [List.map_cons]
    by_cases hfirst : first = relation
    · subst hfirst
      rw [valuesOf_cons_self, ih hnodup, if_neg hnew, if_pos List.mem_cons_self]
    · rw [valuesOf_cons_of_ne hfirst, ih hnodup]
      simp only [List.mem_cons, Ne.symm hfirst, false_or]

theorem valuesOf_ownerships {α : Type} {own : String → α}
    (h : ∀ entry ∈ datasets, entry.dataset.includedRelations.Nodup) :
    valuesOf relation (ownerships own datasets) = (ownersOf datasets relation).map own := by
  induction datasets with
  | nil => rfl
  | cons entry datasets ih =>
    obtain ⟨hentry, hrest⟩ := List.forall_mem_cons.mp h
    rw [ownerships, List.flatMap_cons, valuesOf_append, valuesOf_relations hentry]
    rw [ownerships] at ih
    rw [ih hrest, ownersOf, ownersOf, List.filter_cons]
    by_cases hmem : relation ∈ entry.dataset.includedRelations
    · rw [if_pos hmem, if_pos (decide_eq_true hmem)]
      rfl
    · rw [if_neg hmem, if_neg (by simpa using hmem)]
      rfl

theorem combineAll_singletons {ids owners : List String} :
    combineAll (· ++ ·) (ids.map fun id => [id]) = some owners ↔ ids ≠ [] ∧ owners = ids := by
  have hfold : ∀ ids acc : List String, (ids.map fun id => [id]).foldl (· ++ ·) acc = acc ++ ids := by
    intro ids
    induction ids with
    | nil => exact fun acc => (List.append_nil acc).symm
    | cons id ids ih => exact fun acc => (ih _).trans (List.append_assoc acc [id] ids)
  cases ids with
  | nil => exact iff_of_false nofun fun h => h.1 rfl
  | cons id ids =>
    rw [List.map_cons, combineAll, hfold, Option.some.injEq]
    exact ⟨fun h => ⟨List.cons_ne_nil _ _, h.symm⟩, fun h => h.2.symm⟩

theorem OrderedDatasets.nodup (h : OrderedDatasets datasets) :
    ∀ entry ∈ datasets, entry.dataset.includedRelations.Nodup :=
  fun entry hentry => (requireSortedUnique_eq_ok.mp (h.relations entry hentry)).2.imp ne_of_lt

theorem get?_actualOverlaps (h : OrderedDatasets datasets) {owners : List String} :
    (actualOverlaps (relationOwners datasets)).get? relation = some owners ↔
      2 ≤ owners.length ∧ owners = ownersOf datasets relation := by
  have hkeys : (((relationOwners datasets).entries.filter fun entry =>
      1 < entry.2.length).map Prod.fst).Nodup :=
    (SortedMap.nodup_keys (relationOwners datasets)).sublist (List.filter_sublist.map Prod.fst)
  rw [actualOverlaps, SortedMap.get?_ofList hkeys, List.mem_filter, decide_eq_true_eq,
    ← SortedMap.get?_eq_some_iff, relationOwners_eq, get?_collect, valuesOf_ownerships h.nodup,
    combineAll_singletons]
  constructor
  · rintro ⟨⟨-, rfl⟩, hlength⟩
    exact ⟨hlength, rfl⟩
  · rintro ⟨hlength, rfl⟩
    exact ⟨⟨List.ne_nil_of_length_pos (Nat.zero_lt_of_lt hlength), rfl⟩, hlength⟩

theorem mem_overlappingRelations (h : OrderedDatasets datasets) :
    relation ∈ overlappingRelations datasets ↔ 2 ≤ (ownersOf datasets relation).length := by
  rw [overlappingRelations, SortedMap.mem_keys_iff]
  constructor
  · rintro ⟨owners, howners⟩
    obtain ⟨hlength, rfl⟩ := (get?_actualOverlaps h).mp howners
    exact hlength
  · intro hlength
    exact ⟨_, (get?_actualOverlaps h).mpr ⟨hlength, rfl⟩⟩

theorem pairwise_overlappingRelations (datasets : List CatalogueDatasetEntry) :
    (overlappingRelations datasets).Pairwise (· < ·) :=
  List.pairwise_map.mpr (actualOverlaps (relationOwners datasets)).sorted

/-- Owners are distinct named datasets of the catalogue, in order. -/
theorem OrderedDatasets.owners (h : OrderedDatasets datasets) (relation : String) :
    (ownersOf datasets relation).Pairwise (· < ·) ∧
      ∀ id ∈ ownersOf datasets relation, id ≠ "" ∧ id ∈ datasets.map (·.dataset.id) := by
  refine ⟨List.pairwise_map.mpr (h.ordered.filter _), fun id hid => ?_⟩
  obtain ⟨entry, hentry, rfl⟩ := List.mem_map.mp hid
  have hmem := List.mem_of_mem_filter hentry
  exact ⟨requireText_eq_ok.mp (h.named entry hmem), List.mem_map_of_mem hmem⟩

/-- A relation that some dataset includes has a name. -/
theorem OrderedDatasets.relation_ne (h : OrderedDatasets datasets)
    (howned : ownersOf datasets relation ≠ []) : relation ≠ "" := by
  obtain ⟨id, hid⟩ := List.exists_mem_of_ne_nil _ howned
  obtain ⟨entry, hentry, -⟩ := List.mem_map.mp hid
  obtain ⟨hmem, hrelation⟩ := List.mem_filter.mp hentry
  exact (requireSortedUnique_eq_ok.mp (h.relations entry hmem)).1 relation
    (of_decide_eq_true hrelation)

/-! ### What the validator accepts -/

/-- An allowance records an overlap with its owners. -/
def RelationOverlapAllowance.Records (allowance : RelationOverlapAllowance)
    (datasets : List CatalogueDatasetEntry) : Prop :=
  allowance.reason ≠ "" ∧ 2 ≤ (ownersOf datasets allowance.relation).length ∧
    allowance.datasetIds = ownersOf datasets allowance.relation

theorem zip_differs {α : Type} {xs ys : List α} :
    (xs.length ≠ ys.length ∨ ∃ pair ∈ xs.zip ys, pair.1 ≠ pair.2) ↔ xs ≠ ys := by
  rw [← not_iff_not, not_or, not_not, not_not]
  simp only [not_exists, not_and, not_not]
  constructor
  · rintro ⟨hlength, hpairs⟩
    apply List.ext_getElem hlength
    intro position hx hy
    refine hpairs (xs[position], ys[position]) (List.mem_iff_getElem.mpr ⟨position, ?_, ?_⟩)
    · rw [List.length_zip]
      exact lt_min hx hy
    · exact List.getElem_zip
  · rintro rfl
    refine ⟨rfl, fun pair hpair => ?_⟩
    rw [List.zip_eq_zipWith, List.zipWith_self, List.mem_map] at hpair
    obtain ⟨x, -, rfl⟩ := hpair
    rfl

variable {datasetIds : List String}

theorem validateAllowance_eq_ok (h : OrderedDatasets datasets)
    (hids : ∀ id, id ∈ datasetIds ↔ id ∈ datasets.map (·.dataset.id))
    {previous next : Option String} {allowance : RelationOverlapAllowance} :
    validateAllowance (actualOverlaps (relationOwners datasets)) datasetIds previous allowance =
        .ok next ↔
      next = some allowance.relation ∧ (∀ relation ∈ previous, relation < allowance.relation) ∧
        allowance.Records datasets := by
  simp only [validateAllowance, bind_eq_ok, requireText_eq_ok, throwIf_eq_ok, exists_unit,
    orThrow_eq_ok, pure_eq_ok, zip_differs, get?_actualOverlaps h, not_or, not_exists, not_and,
    not_not, not_lt, not_le]
  constructor
  · rintro ⟨-, hreason, ⟨hprevious, -⟩, owners, ⟨hlength, rfl⟩, howners, rfl⟩
    exact ⟨rfl, hprevious, hreason, hlength, howners.symm⟩
  · rintro ⟨rfl, hprevious, hreason, hlength, howners⟩
    obtain ⟨hsorted, hnamed⟩ := h.owners allowance.relation
    have hne : ownersOf datasets allowance.relation ≠ [] :=
      List.ne_nil_of_length_pos (Nat.zero_lt_of_lt hlength)
    rw [howners]
    exact ⟨h.relation_ne hne, hreason, ⟨hprevious, hlength, fun id hid => (hnamed id hid).1,
      List.isChain_iff_pairwise.mpr hsorted, fun id hid => (hids id).mpr (hnamed id hid).2⟩,
      _, ⟨hlength, rfl⟩, rfl, rfl⟩

theorem foldlM_validateAllowance_eq_ok (h : OrderedDatasets datasets)
    (hids : ∀ id, id ∈ datasetIds ↔ id ∈ datasets.map (·.dataset.id))
    {previous : Option String} {allowances : List RelationOverlapAllowance} :
    (∃ next, allowances.foldlM
        (validateAllowance (actualOverlaps (relationOwners datasets)) datasetIds) previous =
        .ok next) ↔
      (∀ relation ∈ previous, ∀ allowance ∈ allowances, relation < allowance.relation) ∧
        (allowances.map (·.relation)).Pairwise (· < ·) ∧
        ∀ allowance ∈ allowances, allowance.Records datasets := by
  induction allowances generalizing previous with
  | nil =>
    exact iff_of_true ⟨previous, rfl⟩
      ⟨fun _ _ _ h => absurd h List.not_mem_nil, List.Pairwise.nil,
        fun _ h => absurd h List.not_mem_nil⟩
  | cons allowance allowances ih =>
    simp only [List.foldlM_cons, bind_eq_ok, validateAllowance_eq_ok h hids]
    rw [List.map_cons, List.pairwise_cons, List.forall_mem_cons, List.forall_mem_map]
    constructor
    · rintro ⟨next, _, ⟨rfl, hprevious, hrecords⟩, hrest⟩
      obtain ⟨hafter, hsorted, hothers⟩ := ih.mp ⟨next, hrest⟩
      have hlater := hafter allowance.relation rfl
      refine ⟨fun relation hrelation => ?_, ⟨hlater, hsorted⟩, hrecords, hothers⟩
      exact List.forall_mem_cons.mpr ⟨hprevious relation hrelation, fun other hother =>
        (hprevious relation hrelation).trans (hlater other hother)⟩
    · rintro ⟨hprevious, ⟨hlater, hsorted⟩, hrecords, hothers⟩
      obtain ⟨next, hrest⟩ := ih.mpr ⟨fun relation hrelation => by
        obtain rfl := Option.some.inj hrelation
        exact hlater, hsorted, hothers⟩
      exact ⟨next, _, ⟨rfl, fun relation hrelation =>
        hprevious relation hrelation allowance List.mem_cons_self, hrecords⟩, hrest⟩

/-- **The record of the overlaps.** The validator accepts the overlapping relations in
order, each with a reason and its owners, and nothing else. -/
theorem validateOverlapAllowances_eq_ok (h : OrderedDatasets datasets)
    (hids : ∀ id, id ∈ datasetIds ↔ id ∈ datasets.map (·.dataset.id))
    {allowances : List RelationOverlapAllowance} :
    validateOverlapAllowances allowances (relationOwners datasets) datasetIds = .ok () ↔
      allowances.map (·.relation) = overlappingRelations datasets ∧
        ∀ allowance ∈ allowances, allowance.reason ≠ "" ∧
          allowance.datasetIds = ownersOf datasets allowance.relation := by
  have hloop := @foldlM_validateAllowance_eq_ok datasets datasetIds h hids none allowances
  have hsize : (actualOverlaps (relationOwners datasets)).size =
      (overlappingRelations datasets).length := (List.length_map _).symm
  simp only [validateOverlapAllowances, bind_eq_ok, throwIf_eq_ok, not_not, hsize]
  rw [exists_and_right, hloop]
  constructor
  · rintro ⟨⟨-, hsorted, hrecords⟩, hlength⟩
    have hsubset : allowances.map (·.relation) ⊆ overlappingRelations datasets := by
      intro relation hrelation
      obtain ⟨allowance, hallowance, rfl⟩ := List.mem_map.mp hrelation
      exact (mem_overlappingRelations h).mpr (hrecords allowance hallowance).2.1
    have hperm := (List.subperm_of_subset (hsorted.imp ne_of_lt) hsubset).perm_of_length_le
      (by rw [List.length_map, hlength])
    refine ⟨hperm.eq_of_pairwise (fun _ _ _ _ hlt hgt => absurd hgt hlt.asymm) hsorted
      (pairwise_overlappingRelations datasets), fun allowance hallowance => ?_⟩
    obtain ⟨hreason, -, howners⟩ := hrecords allowance hallowance
    exact ⟨hreason, howners⟩
  · rintro ⟨hrelations, hrecords⟩
    refine ⟨⟨nofun, hrelations ▸ pairwise_overlappingRelations datasets,
      fun allowance hallowance => ?_⟩, by rw [← hrelations, List.length_map]⟩
    have hmem : allowance.relation ∈ overlappingRelations datasets :=
      hrelations ▸ List.mem_map_of_mem hallowance
    obtain ⟨hreason, howners⟩ := hrecords allowance hallowance
    exact ⟨hreason, (mem_overlappingRelations h).mp hmem, howners⟩

theorem relationOwners_concat (datasets : List CatalogueDatasetEntry)
    (entry : CatalogueDatasetEntry) :
    relationOwners (datasets ++ [entry]) = addOwner (relationOwners datasets) entry :=
  List.foldl_concat ..

/-- What the entries before have used. -/
structure CatalogueScan.Follows (scan : CatalogueScan) (datasets : List CatalogueDatasetEntry) :
    Prop where
  ordered : OrderedDatasets datasets
  ids : ∀ id, id ∈ scan.datasetIds ↔ id ∈ datasets.map (·.dataset.id)
  owners : scan.relationOwners = Pipeline.relationOwners datasets
  previous : ∀ id ∈ datasets.map (·.dataset.id), ∃ previous ∈ scan.previousDatasetId, id ≤ previous

theorem CatalogueScan.Follows.validateEntry {catalogue : DatasetCatalogue}
    {scan next : CatalogueScan} {entry : CatalogueDatasetEntry} (h : scan.Follows datasets)
    (hstep : catalogue.validateEntry prims scan entry = .ok next) :
    next.Follows (datasets ++ [entry]) := by
  simp only [DatasetCatalogue.validateEntry, bind_eq_ok, exists_unit, throwIf_eq_ok, pure_eq_ok,
    not_or, not_exists, not_and, not_le] at hstep
  obtain ⟨hvalid, -, -, ⟨-, -, -, -, hprevious, -⟩, paths, -, rfl⟩ := hstep
  -- every id so far is at most the previous one
  have hbelow : ∀ other ∈ datasets, other.dataset.id < entry.dataset.id := by
    intro other hother
    obtain ⟨previous, hscan, hle⟩ := h.previous _ (List.mem_map_of_mem hother)
    exact hle.trans_lt (hprevious previous hscan)
  obtain ⟨hnamed, hrelations⟩ := DatasetIdentity.validate_accepted hvalid
  refine ⟨⟨?_, ?_, ?_⟩, fun id => ?_, ?_, fun id hid => ⟨entry.dataset.id, rfl, ?_⟩⟩
  · exact List.forall_mem_append.mpr
      ⟨h.ordered.named, fun other hother => List.mem_singleton.mp hother ▸ hnamed⟩
  · exact List.forall_mem_append.mpr
      ⟨h.ordered.relations, fun other hother => List.mem_singleton.mp hother ▸ hrelations⟩
  · refine List.pairwise_append.mpr ⟨h.ordered.ordered, List.pairwise_singleton _ _, ?_⟩
    intro other hother last hlast
    exact List.mem_singleton.mp hlast ▸ hbelow other hother
  · rw [List.map_append, List.mem_append, List.map_singleton, List.mem_singleton, ← h.ids id,
      List.mem_cons, or_comm]
  · rw [relationOwners_concat, ← h.owners]
  · obtain ⟨other, hother, rfl⟩ := List.mem_map.mp hid
    rcases List.mem_append.mp hother with hold | hnew
    · exact (hbelow other hold).le
    · rw [List.mem_singleton.mp hnew]

/-- A valid catalogue records its overlaps. -/
theorem DatasetCatalogue.validate_overlaps {catalogue : DatasetCatalogue}
    (h : catalogue.validate prims = .ok ()) :
    OrderedDatasets catalogue.datasets ∧
      catalogue.allowedRelationOverlaps.map (·.relation) =
        overlappingRelations catalogue.datasets ∧
      ∀ allowance ∈ catalogue.allowedRelationOverlaps, allowance.reason ≠ "" ∧
        allowance.datasetIds = ownersOf catalogue.datasets allowance.relation := by
  simp only [DatasetCatalogue.validate, bind_eq_ok, exists_unit] at h
  obtain ⟨-, -, -, -, -, scan, hscan, hoverlaps, -⟩ := h
  have hfollows : scan.Follows catalogue.datasets := by
    refine foldlM_invariant (P := fun pre scan => scan.Follows pre) ?_ ?_ hscan
    · exact ⟨⟨fun _ h => absurd h List.not_mem_nil, fun _ h => absurd h List.not_mem_nil,
        List.Pairwise.nil⟩, fun _ => Iff.rfl, rfl, fun _ h => absurd h List.not_mem_nil⟩
    · intro pre entry post scan next hsplit hpre hstep
      exact hpre.validateEntry prims hstep
  rw [hfollows.owners] at hoverlaps
  exact ⟨hfollows.ordered,
    (validateOverlapAllowances_eq_ok hfollows.ordered hfollows.ids).mp hoverlaps⟩

end Owners

end LivefireRag.Pipeline
