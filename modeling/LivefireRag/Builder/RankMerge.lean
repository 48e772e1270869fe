import Mathlib.Algebra.Order.Field.Basic
import Mathlib.Algebra.Order.Field.Rat
import LivefireRag.Lib.Fallible
import LivefireRag.Lib.Ranking
import LivefireRag.Builder.Basic
import LivefireRag.Pipeline.PlanTiling

/-!
# Merging the rankings of a catalogue

A catalogue search asks every index for its first `topN` documents and merges the
answers by reciprocal rank. The merge sorts by score, dataset digest and document
id; with distinct datasets and distinct documents in each, these keys are
distinct, and merging the cut rankings gives the beginning of the merge of the
whole rankings (`searchAdmittedCatalogueWithVector_merge`).

Scores are exact: `1 / (60 + rank)` as a rational.
-/

namespace LivefireRag.Builder

open Machine Fallible Ranking Index Pipeline

/-! ### The search of a catalogue -/

/-- The searches an index offers, `Vector` being the query vectors bound to its
profile. -/
structure FastIndex (Score Vector : Type) where
  searchDenseWithVector : Vector → SearchFilters → ℕ → Except IndexError (List (SearchHit Score))
  searchFusedWithVector :
    String → Vector → SearchFilters → ℕ → Except IndexError (List (SearchHit Score))
  search : SearchMode → String → Option Vector → SearchFilters → ℕ →
    Except IndexError (List (SearchHit Score))

structure AdmittedDataset (Score Vector : Type) where
  dataset : DatasetIdentity
  datasetSha256 : Digest
  indexSha256 : Digest
  index : FastIndex Score Vector

structure CatalogueSearchHit (Score : Type) where
  rank : ℕ
  reciprocalRankScore : ℚ
  dataset : DatasetIdentity
  datasetSha256 : Digest
  indexSha256 : Digest
  indexRank : ℕ
  hit : SearchHit Score

structure CatalogueSearchOptions where
  query : String
  mode : SearchMode
  topN : ℕ
  relations : List String
  timeStartMs : Option U64
  timeEndMs : Option U64

variable {Score Vector : Type}

def CatalogueSearchOptions.filters (options : CatalogueSearchOptions) : SearchFilters where
  relations := options.relations
  timeStartMs := options.timeStartMs
  timeEndMs := options.timeEndMs

def rankMergeK : ℕ := 60

def reciprocalRankScore (rank : ℕ) : Result ℚ := do
  throwIf (rank = 0) (.accountingClosure "catalogue index returned a zero rank")
  return 1 / ((rankMergeK + rank : ℕ) : ℚ)

/-- Higher scores first, then by dataset, then by document. -/
def compareHits (left right : CatalogueSearchHit Score) : Ordering :=
  (compare right.reciprocalRankScore left.reciprocalRankScore).then
    ((compare left.datasetSha256.val right.datasetSha256.val).then
      (compare left.hit.documentId right.hit.documentId))

def rankCatalogueHits (hits : List (CatalogueSearchHit Score)) (topN : ℕ) :
    List (CatalogueSearchHit Score) :=
  ((hits.mergeSort fun left right => (compareHits left right).isLE).take topN).mapIdx
    fun ordinal hit => { hit with rank := ordinal + 1 }

/-- One hit of an index as a hit of the catalogue, not ranked yet. -/
def catalogueHit (dataset : AdmittedDataset Score Vector) (hit : SearchHit Score) :
    Result (CatalogueSearchHit Score) := do
  let score ← reciprocalRankScore hit.rank
  return {
    rank := 0
    reciprocalRankScore := score
    dataset := dataset.dataset
    datasetSha256 := dataset.datasetSha256
    indexSha256 := dataset.indexSha256
    indexRank := hit.rank
    hit := hit }

/-- The search of one index. The last case does not arise: the query vector is
fixed by the search mode. -/
def searchDataset (options : CatalogueSearchOptions) (queryVector : Option Vector)
    (dataset : AdmittedDataset Score Vector) : Except IndexError (List (SearchHit Score)) :=
  match options.mode, queryVector with
  | .dense, some query => dataset.index.searchDenseWithVector query options.filters options.topN
  | .fused, some query =>
    dataset.index.searchFusedWithVector options.query query options.filters options.topN
  | .lexical, none =>
    dataset.index.search .lexical options.query none options.filters options.topN
  | _, _ => .error (.invalid "query vector is fixed by search mode")

/-- The hits of all searches, the first failed one failing the search. -/
def searchedHits
    (searched : List (AdmittedDataset Score Vector × Except IndexError (List (SearchHit Score)))) :
    Result (List (CatalogueSearchHit Score)) := do
  let hits ← searched.mapM fun entry => do
    let hits ← entry.2.mapError .index
    hits.mapM (catalogueHit entry.1)
  return hits.flatten

def searchAdmittedCatalogueWithVector (datasets : List (AdmittedDataset Score Vector))
    (options : CatalogueSearchOptions) (queryVector : Option Vector) :
    Result (List (CatalogueSearchHit Score)) := do
  throwIf (¬ (options.mode = .dense ∨ options.mode = .fused ↔ queryVector.isSome))
    (.accountingClosure "catalogue query vector does not match the search mode")
  let ranked ← searchedHits (datasets.map fun dataset =>
    (dataset, searchDataset options queryVector dataset))
  return rankCatalogueHits ranked options.topN

/-! ### The order of the merge -/

/-- The key the merge sorts by. -/
abbrev HitKey := ℚᵒᵈ ×ₗ String ×ₗ String

def hitKey (hit : CatalogueSearchHit Score) : HitKey :=
  toLex (OrderDual.toDual hit.reciprocalRankScore,
    toLex (hit.datasetSha256.val, hit.hit.documentId))

/-- The comparison is that of the keys. -/
theorem isLE_compareHits (left right : CatalogueSearchHit Score) :
    (compareHits left right).isLE ↔ hitKey left ≤ hitKey right := by
  have hdocument : (compare left.hit.documentId right.hit.documentId).isLE ↔
      left.hit.documentId ≤ right.hit.documentId :=
    Ordering.ne_gt_iff_isLE.symm.trans compare_le_iff_le
  rw [compareHits, Ordering.isLE_then_iff_or, Ordering.isLE_then_iff_or, compare_lt_iff_lt,
    compare_eq_iff_eq, compare_lt_iff_lt, compare_eq_iff_eq, hdocument, hitKey, hitKey,
    Prod.Lex.toLex_le_toLex, Prod.Lex.toLex_le_toLex, OrderDual.toDual_lt_toDual,
    OrderDual.toDual_inj]
  exact or_congr Iff.rfl (and_congr_left' eq_comm)

theorem rankCatalogueHits_eq (hits : List (CatalogueSearchHit Score)) (topN : ℕ) :
    rankCatalogueHits hits topN = ((sortBy hitKey hits).take topN).mapIdx
      fun ordinal hit => { hit with rank := ordinal + 1 } := by
  have horder : (fun left right : CatalogueSearchHit Score => (compareHits left right).isLE) =
      fun left right => decide (hitKey left ≤ hitKey right) := by
    funext left right
    rw [Bool.eq_iff_iff, isLE_compareHits, decide_eq_true_eq]
  rw [rankCatalogueHits, horder]
  rfl

/-! ### The hits of an index -/

/-- A hit of an index with its score. -/
def scoredHit (dataset : AdmittedDataset Score Vector) (hit : SearchHit Score) :
    CatalogueSearchHit Score where
  rank := 0
  reciprocalRankScore := 1 / ((rankMergeK + hit.rank : ℕ) : ℚ)
  dataset := dataset.dataset
  datasetSha256 := dataset.datasetSha256
  indexSha256 := dataset.indexSha256
  indexRank := hit.rank
  hit := hit

theorem catalogueHit_eq_ok {dataset : AdmittedDataset Score Vector} {hit : SearchHit Score}
    (h : hit.rank ≠ 0) : catalogueHit dataset hit = .ok (scoredHit dataset hit) := by
  rw [catalogueHit, reciprocalRankScore, throwIf_bind_of_not h]
  rfl

/-- The hits of an index whose ranking is cut after `n`. -/
def datasetHits (ranking : AdmittedDataset Score Vector → List (SearchHit Score)) (n : ℕ)
    (dataset : AdmittedDataset Score Vector) : List (CatalogueSearchHit Score) :=
  (selectHits (ranking dataset) n).map (scoredHit dataset)

/-- The hits of the whole ranking of an index. -/
abbrev wholeHits (ranking : AdmittedDataset Score Vector → List (SearchHit Score))
    (dataset : AdmittedDataset Score Vector) : List (CatalogueSearchHit Score) :=
  datasetHits ranking (ranking dataset).length dataset

theorem rank_pos_of_mem_selectHits {ranking : List (SearchHit Score)} {n : ℕ}
    {hit : SearchHit Score} (h : hit ∈ selectHits ranking n) : hit.rank ≠ 0 := by
  obtain ⟨index, hindex, rfl⟩ := List.mem_mapIdx.mp h
  exact Nat.succ_ne_zero index

/-- The hits of the searches, when each is the beginning of a ranking. -/
theorem searchedHits_eq_ok {datasets : List (AdmittedDataset Score Vector)}
    {ranking : AdmittedDataset Score Vector → List (SearchHit Score)}
    {search : AdmittedDataset Score Vector → Except IndexError (List (SearchHit Score))}
    {cut : AdmittedDataset Score Vector → ℕ}
    (h : ∀ dataset ∈ datasets, search dataset = .ok (selectHits (ranking dataset) (cut dataset))) :
    searchedHits (datasets.map fun dataset => (dataset, search dataset)) =
      .ok (datasets.flatMap fun dataset => datasetHits ranking (cut dataset) dataset) := by
  have hall : (datasets.map fun dataset => (dataset, search dataset)).mapM (fun entry => do
      let hits ← entry.2.mapError Error.index
      hits.mapM (catalogueHit entry.1)) =
      .ok (datasets.map fun dataset => datasetHits ranking (cut dataset) dataset) := by
    rw [List.mapM_map]
    refine mapM_eq_map fun dataset hdataset => ?_
    rw [Function.comp_apply, h dataset hdataset]
    exact mapM_eq_map fun hit hhit => catalogueHit_eq_ok (rank_pos_of_mem_selectHits hhit)
  rw [searchedHits, hall, List.flatMap_def]
  rfl

/-- Cutting the ranking cuts its hits. -/
theorem datasetHits_eq_take (ranking : AdmittedDataset Score Vector → List (SearchHit Score))
    (n : ℕ) (dataset : AdmittedDataset Score Vector) :
    datasetHits ranking n dataset = (wholeHits ranking dataset).take n := by
  rw [wholeHits, datasetHits, datasetHits, ← List.map_take]
  rcases le_total n (ranking dataset).length with hle | hle
  · rw [selectHits_eq_take _ hle]
  · rw [selectHits, selectHits, List.take_of_length_le hle, List.take_length,
      List.take_of_length_le (by rw [List.length_mapIdx]; exact hle)]

/-- The hits of an index are sorted as the merge sorts: a later rank has a lower score. -/
theorem wholeHits_pairwise (ranking : AdmittedDataset Score Vector → List (SearchHit Score))
    (dataset : AdmittedDataset Score Vector) :
    (wholeHits ranking dataset).Pairwise (hitKey · < hitKey ·) := by
  rw [wholeHits, datasetHits, List.pairwise_map, selectHits]
  refine List.pairwise_iff_getElem.mpr fun i j hi hj hij => ?_
  rw [List.getElem_mapIdx, List.getElem_mapIdx]
  refine Prod.Lex.toLex_lt_toLex.mpr (Or.inl (OrderDual.toDual_lt_toDual.mpr ?_))
  refine one_div_lt_one_div_of_lt ?_ ?_
  · exact Nat.cast_pos.mpr (Nat.add_pos_left (by decide) _)
  · exact Nat.cast_lt.mpr (by simpa [scoredHit] using hij)

theorem documentIds_wholeHits (ranking : AdmittedDataset Score Vector → List (SearchHit Score))
    (dataset : AdmittedDataset Score Vector) :
    (wholeHits ranking dataset).map (fun hit => (hit.datasetSha256.val, hit.hit.documentId)) =
      (ranking dataset).map fun hit => (dataset.datasetSha256.val, hit.documentId) := by
  rw [wholeHits, datasetHits, List.map_map, map_selectHits (fun _ _ => rfl), List.take_length]
  rfl

/-- With distinct datasets and distinct documents in each, the hits have distinct
pairs of dataset and document. -/
theorem pairs_nodup {datasets : List (AdmittedDataset Score Vector)}
    {ranking : AdmittedDataset Score Vector → List (SearchHit Score)}
    (hdatasets : (datasets.map (·.datasetSha256)).Nodup)
    (hdocuments : ∀ dataset ∈ datasets, ((ranking dataset).map (·.documentId)).Nodup) :
    ((datasets.flatMap (wholeHits ranking)).map
      fun hit => (hit.datasetSha256.val, hit.hit.documentId)).Nodup := by
  rw [List.map_flatMap, List.nodup_flatMap]
  refine ⟨fun dataset hdataset => ?_, ?_⟩
  · rw [documentIds_wholeHits]
    have hpairs := (hdocuments dataset hdataset).map (f := Prod.mk dataset.datasetSha256.val)
      fun _ _ heq => (Prod.mk.inj heq).2
    rwa [List.map_map] at hpairs
  · refine (List.pairwise_map.mp hdatasets).imp fun {left right} hne => ?_
    rw [Function.onFun_apply, documentIds_wholeHits, documentIds_wholeHits]
    -- the pairs of two datasets differ in the dataset
    intro pair hleft hright
    obtain ⟨_, -, rfl⟩ := List.mem_map.mp hleft
    obtain ⟨_, -, heq⟩ := List.mem_map.mp hright
    exact hne (Subtype.ext (Prod.mk.inj heq).1.symm)

theorem hitKey_nodup {hits : List (CatalogueSearchHit Score)}
    (h : (hits.map fun hit => (hit.datasetSha256.val, hit.hit.documentId)).Nodup) :
    (hits.map hitKey).Nodup := by
  refine List.Nodup.of_map (fun key : HitKey => ofLex (ofLex key).2) ?_
  rw [List.map_map]
  exact h

/-! ### The merge -/

/-- The merge of the whole rankings of the datasets. -/
def mergeRankings (ranking : AdmittedDataset Score Vector → List (SearchHit Score))
    (datasets : List (AdmittedDataset Score Vector)) :
    Result (List (CatalogueSearchHit Score)) := do
  let hits ← searchedHits (datasets.map fun dataset =>
    (dataset, .ok (selectHits (ranking dataset) (ranking dataset).length)))
  return rankCatalogueHits hits hits.length

theorem searchAdmittedCatalogueWithVector_eq_ok
    {datasets : List (AdmittedDataset Score Vector)} {options : CatalogueSearchOptions}
    {queryVector : Option Vector}
    {ranking : AdmittedDataset Score Vector → List (SearchHit Score)}
    (hvector : options.mode = .dense ∨ options.mode = .fused ↔ queryVector.isSome)
    (hsearch : ∀ dataset ∈ datasets, searchDataset options queryVector dataset =
      .ok (selectHits (ranking dataset) options.topN)) :
    searchAdmittedCatalogueWithVector datasets options queryVector =
      .ok (rankCatalogueHits (datasets.flatMap (datasetHits ranking options.topN))
        options.topN) := by
  rw [searchAdmittedCatalogueWithVector, throwIf_bind_of_not (not_not.mpr hvector),
    searchedHits_eq_ok hsearch]
  rfl

theorem mergeRankings_eq_ok (ranking : AdmittedDataset Score Vector → List (SearchHit Score))
    (datasets : List (AdmittedDataset Score Vector)) :
    mergeRankings ranking datasets =
      .ok (rankCatalogueHits (datasets.flatMap (wholeHits ranking))
        (datasets.flatMap (wholeHits ranking)).length) := by
  rw [mergeRankings, searchedHits_eq_ok fun _ _ => rfl]
  rfl

/-- The first `topN` hits do not depend on a cut of the rankings after `topN`. -/
theorem rankCatalogueHits_cut {datasets : List (AdmittedDataset Score Vector)}
    {ranking : AdmittedDataset Score Vector → List (SearchHit Score)}
    (hkeys : ((datasets.flatMap (wholeHits ranking)).map hitKey).Nodup) (topN : ℕ) :
    rankCatalogueHits (datasets.flatMap (datasetHits ranking topN)) topN =
      rankCatalogueHits (datasets.flatMap (wholeHits ranking)) topN := by
  have hcut : datasets.flatMap (datasetHits ranking topN) =
      datasets.flatMap fun dataset => (wholeHits ranking dataset).take topN :=
    List.flatMap_congr fun dataset _ => datasetHits_eq_take ranking topN dataset
  rw [rankCatalogueHits_eq, rankCatalogueHits_eq, hcut, take_sortBy_flatMap_take
    (fun dataset _ => (wholeHits_pairwise ranking dataset).imp le_of_lt) hkeys]

theorem rankCatalogueHits_eq_take (hits : List (CatalogueSearchHit Score)) (topN : ℕ) :
    rankCatalogueHits hits topN = (rankCatalogueHits hits hits.length).take topN := by
  rw [rankCatalogueHits_eq, rankCatalogueHits_eq,
    List.take_of_length_le (i := hits.length) (le_of_eq length_sortBy)]
  refine List.ext_getElem? fun i => ?_
  rw [List.getElem?_take, List.getElem?_mapIdx, List.getElem?_mapIdx, List.getElem?_take]
  by_cases hi : i < topN
  · rw [if_pos hi, if_pos hi]
  · rw [if_neg hi, if_neg hi, Option.map_none]

/-- What does not read the rank reads the sorted hits. -/
theorem map_rankCatalogueHits {β : Type} {f : CatalogueSearchHit Score → β}
    (hf : ∀ hit index, f { hit with rank := index } = f hit)
    (hits : List (CatalogueSearchHit Score)) (topN : ℕ) :
    (rankCatalogueHits hits topN).map f = ((sortBy hitKey hits).take topN).map f := by
  refine List.ext_getElem? fun i => ?_
  rw [rankCatalogueHits_eq, List.getElem?_map, List.getElem?_map, List.getElem?_mapIdx,
    Option.map_map]
  exact congrFun (congrArg Option.map (funext fun hit => hf hit (i + 1))) _

theorem ranks_rankCatalogueHits (hits : List (CatalogueSearchHit Score)) (topN : ℕ) :
    (rankCatalogueHits hits topN).map (·.rank) =
      List.range' 1 (rankCatalogueHits hits topN).length := by
  refine List.ext_getElem (by rw [List.length_map, List.length_range']) fun i hi hi' => ?_
  simp only [rankCatalogueHits, List.getElem_map, List.getElem_mapIdx, List.getElem_range']
  omega

/-- The hits of one of the datasets. -/
theorem filter_wholeHits {datasets : List (AdmittedDataset Score Vector)}
    (ranking : AdmittedDataset Score Vector → List (SearchHit Score))
    (hdatasets : (datasets.map (·.datasetSha256)).Nodup)
    {dataset : AdmittedDataset Score Vector} (hdataset : dataset ∈ datasets) :
    (datasets.flatMap (wholeHits ranking)).filter (·.datasetSha256 = dataset.datasetSha256) =
      wholeHits ranking dataset := by
  have hfilter : ∀ other : AdmittedDataset Score Vector,
      (wholeHits ranking other).filter (·.datasetSha256 = dataset.datasetSha256) =
        if other.datasetSha256 = dataset.datasetSha256 then wholeHits ranking other else [] := by
    intro other
    have hof : ∀ hit ∈ wholeHits ranking other, hit.datasetSha256 = other.datasetSha256 := by
      intro hit hhit
      obtain ⟨_, -, rfl⟩ := List.mem_map.mp hhit
      rfl
    split
    · next heq => exact List.filter_eq_self.mpr fun hit hhit => by simp [hof hit hhit, heq]
    · next hne => exact List.filter_eq_nil_iff.mpr fun hit hhit => by simp [hof hit hhit, hne]
  obtain ⟨before, after, rfl⟩ := List.append_of_mem hdataset
  rw [List.map_append, List.map_cons, List.nodup_middle, List.nodup_cons, ← List.map_append]
    at hdatasets
  -- nothing of the datasets before and after is selected
  have hnone : ∀ others : List (AdmittedDataset Score Vector), others ⊆ before ++ after →
      (others.flatMap (wholeHits ranking)).filter
        (·.datasetSha256 = dataset.datasetSha256) = [] := by
    intro others hothers
    rw [List.filter_flatMap, List.flatMap_eq_nil_iff]
    intro other hother
    rw [hfilter, if_neg]
    intro heq
    exact hdatasets.1 (List.mem_map.mpr ⟨other, hothers hother, heq⟩)
  rw [List.flatMap_append, List.flatMap_cons, List.filter_append, List.filter_append,
    hnone before (List.subset_append_left _ _), hnone after (List.subset_append_right _ _),
    hfilter, if_pos rfl, List.nil_append, List.append_nil]

/-- The merged hits of a dataset are the beginning of its ranking. -/
theorem filter_rankCatalogueHits {datasets : List (AdmittedDataset Score Vector)}
    {ranking : AdmittedDataset Score Vector → List (SearchHit Score)}
    (hdatasets : (datasets.map (·.datasetSha256)).Nodup)
    (hkeys : ((datasets.flatMap (wholeHits ranking)).map hitKey).Nodup)
    {dataset : AdmittedDataset Score Vector} (hdataset : dataset ∈ datasets) (topN : ℕ) :
    ∃ k, ((rankCatalogueHits (datasets.flatMap (wholeHits ranking)) topN).filter
        (·.datasetSha256 = dataset.datasetSha256)).map (·.hit) = selectHits (ranking dataset) k := by
  set hits := datasets.flatMap (wholeHits ranking) with hhits
  -- the selection reads the dataset and the hit, not the rank
  have hselect : ∀ merged : List (CatalogueSearchHit Score),
      (merged.filter (·.datasetSha256 = dataset.datasetSha256)).map (·.hit) =
        ((merged.map fun hit => (hit.datasetSha256, hit.hit)).filter
          (·.1 = dataset.datasetSha256)).map Prod.snd := by
    intro merged
    rw [List.filter_map, List.map_map]
    rfl
  have hprefix : ((sortBy hitKey hits).take topN).filter
      (·.datasetSha256 = dataset.datasetSha256) <+: wholeHits ranking dataset := by
    have hsorted := sortBy_of_pairwise
      ((wholeHits_pairwise ranking dataset).imp le_of_lt)
    rw [← hsorted, ← filter_wholeHits ranking hdatasets hdataset, ← filter_sortBy _ hkeys]
    exact (List.take_prefix topN _).filter _
  refine ⟨(((sortBy hitKey hits).take topN).filter
    (·.datasetSha256 = dataset.datasetSha256)).length, ?_⟩
  rw [hselect, map_rankCatalogueHits (fun _ _ => rfl), ← hselect,
    congrArg (List.map _) (List.prefix_iff_eq_take.mp hprefix), ← datasetHits_eq_take,
    datasetHits, List.map_map]
  exact List.map_id _

/-- **The rank merge.** Merging the first `topN` of every ranking gives the first
`topN` of the merge of the whole rankings, whatever the order of the datasets. It
holds each document of a dataset at most once, keeps the order of every ranking
and numbers its hits from 1. -/
theorem searchAdmittedCatalogueWithVector_merge
    (datasets : List (AdmittedDataset Score Vector)) (options : CatalogueSearchOptions)
    (queryVector : Option Vector)
    (ranking : AdmittedDataset Score Vector → List (SearchHit Score))
    (hdatasets : (datasets.map (·.datasetSha256)).Nodup)
    (hdocuments : ∀ dataset ∈ datasets, ((ranking dataset).map (·.documentId)).Nodup)
    (hvector : options.mode = .dense ∨ options.mode = .fused ↔ queryVector.isSome)
    (hsearch : ∀ dataset ∈ datasets, searchDataset options queryVector dataset =
      .ok (selectHits (ranking dataset) options.topN)) :
    ∃ merged whole, searchAdmittedCatalogueWithVector datasets options queryVector = .ok merged ∧
      mergeRankings ranking datasets = .ok whole ∧ merged = whole.take options.topN ∧
      (∀ others : List (AdmittedDataset Score Vector), others.Perm datasets →
        searchAdmittedCatalogueWithVector others options queryVector = .ok merged) ∧
      (merged.map fun hit => (hit.datasetSha256, hit.hit.documentId)).Nodup ∧
      (∀ dataset ∈ datasets, ∃ k,
        (merged.filter (·.datasetSha256 = dataset.datasetSha256)).map (·.hit) =
          selectHits (ranking dataset) k) ∧
      merged.map (·.rank) = List.range' 1 merged.length := by
  have hpairs := pairs_nodup hdatasets hdocuments
  have hkeys := hitKey_nodup hpairs
  -- the merge of the cut rankings is the cut merge of the whole ones, in any order
  have hmerge : ∀ others : List (AdmittedDataset Score Vector), others.Perm datasets →
      searchAdmittedCatalogueWithVector others options queryVector =
        .ok (rankCatalogueHits (datasets.flatMap (wholeHits ranking)) options.topN) := by
    intro others hperm
    have hwhole := hperm.flatMap_right (wholeHits ranking)
    have hothers := (hwhole.map hitKey).nodup_iff.mpr hkeys
    rw [searchAdmittedCatalogueWithVector_eq_ok hvector fun dataset hdataset =>
      hsearch dataset (hperm.mem_iff.mp hdataset), rankCatalogueHits_cut hothers,
      rankCatalogueHits_eq, rankCatalogueHits_eq, sortBy_congr hwhole hothers]
  refine ⟨_, _, hmerge datasets (List.Perm.refl _), mergeRankings_eq_ok ranking datasets,
    rankCatalogueHits_eq_take _ _, hmerge, ?_, fun dataset hdataset =>
    filter_rankCatalogueHits hdatasets hkeys hdataset _, ranks_rankCatalogueHits _ _⟩
  rw [map_rankCatalogueHits fun _ _ => rfl]
  have hsorted := ((sortBy_perm hitKey (datasets.flatMap (wholeHits ranking))).map
    fun hit => (hit.datasetSha256, hit.hit.documentId)).nodup_iff.mpr
      (List.Nodup.of_map (fun pair : Digest × String => (pair.1.val, pair.2))
        (by rw [List.map_map]; exact hpairs))
  exact hsorted.sublist ((List.take_sublist _ _).map _)

/-! ### A catalogue of two datasets -/

def sampleHit (documentId : String) : SearchHit ℕ where
  rank := 0
  documentId := documentId
  semanticText := "text"
  score := 1
  denseScore := none
  lexicalScore := some 1
  eligibleOccurrenceCount := 1
  occurrencesExhausted := true
  occurrences := []

/-- An index that ranks the given documents for every query. -/
def sampleIndex (documents : List String) : FastIndex ℕ Unit where
  searchDenseWithVector _ _ n := .ok (selectHits (documents.map sampleHit) n)
  searchFusedWithVector _ _ _ n := .ok (selectHits (documents.map sampleHit) n)
  search _ _ _ _ n := .ok (selectHits (documents.map sampleHit) n)

def sampleAdmitted (digest : ℕ) (documents : List String) : AdmittedDataset ℕ Unit where
  dataset := sampleDataset
  datasetSha256 := hexDigest digest
  indexSha256 := hexDigest digest
  index := sampleIndex documents

def sampleCatalogue : List (AdmittedDataset ℕ Unit) :=
  [sampleAdmitted 2 ["b", "a", "c"], sampleAdmitted 1 ["a", "d"]]

def sampleSearch : CatalogueSearchOptions where
  query := "query"
  mode := .lexical
  topN := 3
  relations := []
  timeStartMs := none
  timeEndMs := none

/-- The ranking of an index, read off its search. -/
def sampleRanking (dataset : AdmittedDataset ℕ Unit) : List (SearchHit ℕ) :=
  match dataset.index.search .lexical "query" none sampleSearch.filters 5 with
  | .ok hits => hits
  | .error _ => []

theorem sampleCatalogue_merge :
    ∃ merged whole,
      searchAdmittedCatalogueWithVector sampleCatalogue sampleSearch none = .ok merged ∧
      mergeRankings sampleRanking sampleCatalogue = .ok whole ∧ merged = whole.take 3 ∧
      (∀ others : List (AdmittedDataset ℕ Unit), others.Perm sampleCatalogue →
        searchAdmittedCatalogueWithVector others sampleSearch none = .ok merged) ∧
      (merged.map fun hit => (hit.datasetSha256, hit.hit.documentId)).Nodup ∧
      (∀ dataset ∈ sampleCatalogue, ∃ k,
        (merged.filter (·.datasetSha256 = dataset.datasetSha256)).map (·.hit) =
          selectHits (sampleRanking dataset) k) ∧
      merged.map (·.rank) = List.range' 1 merged.length := by
  refine searchAdmittedCatalogueWithVector_merge sampleCatalogue sampleSearch none sampleRanking
    ?_ ?_ (by decide) ?_
  · decide
  · exact List.forall_mem_cons.mpr ⟨by decide, List.forall_mem_cons.mpr ⟨by decide, by simp⟩⟩
  · exact List.forall_mem_cons.mpr ⟨rfl, List.forall_mem_cons.mpr ⟨rfl, by simp⟩⟩

end LivefireRag.Builder
