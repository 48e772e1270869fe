import LivefireRag.Pipeline.PlanTiling
import LivefireRag.Review.Pool

/-!
# What the review pool tells

Every candidate that a result returned has one row, and its private row lists the results
that returned it (`CompletePool`). What a reviewer is shown of a candidate is a function of
the fixture, of the indexes and of the candidate (`rowOf`), so two runs that return the same
candidates give reviewers the same bytes. The indexes themselves are determined by the
catalogue, because their digests are (`openIndexes_congr`).
-/

namespace LivefireRag.Review

open Fallible Pipeline

/-! ### What a run returned -/

/-- The hit is one of the document in the dataset. -/
def HitOf (datasetSha documentId : String) (hit : Json) : Prop :=
  hit.member "dataset_sha256" = .string datasetSha ∧
    (hit.member "hit").member "document_id" = .string documentId

/-- The result returned the candidate. -/
def ReturnedBy (result : Json) (key : Candidate) : Prop :=
  result.member "query_id" = .string key.1 ∧ ∃ hit ∈ hitsOf result, HitOf key.2.1 key.2.2 hit

instance (datasetSha documentId : String) : DecidablePred (HitOf datasetSha documentId) :=
  fun hit => by unfold HitOf; infer_instance

instance (key : Candidate) : DecidablePred fun result => ReturnedBy result key := fun result => by
  unfold ReturnedBy
  infer_instance

def Returned (results : List Json) (key : Candidate) : Prop :=
  ∃ result ∈ results, ReturnedBy result key

instance (results : List Json) : DecidablePred (Returned results) := fun key => by
  unfold Returned
  infer_instance

/-- The positions of the results that returned the candidate. -/
def returningOrdinals (results : List Json) (key : Candidate) : List ℕ :=
  (results.zipIdx.filter fun entry => ReturnedBy entry.1 key).map Prod.snd

/-! ### What an index says of a document -/

/-- The document as a reviewer is shown it, when the index has it once. -/
def IndexContents.material (index : IndexContents) (documentId : String) : Option ReviewMaterial :=
  match index.documentTexts documentId with
  | [.string semanticText] => some {
      datasetId := index.dataset.member "id"
      documentId := documentId
      semanticText := semanticText
      eligibleOccurrenceCount := (index.occurrencesOf documentId).length
      occurrences := ((index.occurrencesOf documentId).take 50).map (·.pointer) }
  | _ => none

def materialOf (indexes : List IndexContents) (key : Candidate) : Option ReviewMaterial :=
  (indexes.find? fun index => index.datasetSha256 = key.2.1).bind (·.material key.2.2)

variable {prims : Primitives} {reading : Reading}

theorem requireSha256_eq_ok {value : Json} {label text : String}
    (h : requireSha256 value label = .ok text) : value = .string text := by
  simp only [requireSha256, bind_eq_ok, orThrow_eq_ok, exists_unit, throwIf_eq_ok,
    pure_eq_ok] at h
  obtain ⟨text, htext, -, rfl⟩ := h
  cases value with
  | string s => rw [Option.some.inj htext]
  | _ => cases htext

theorem requireText_eq_ok {value : Json} {label text : String} {maximum : ℕ}
    (h : requireText value label maximum = .ok text) : value = .string text := by
  simp only [requireText, bind_eq_ok, orThrow_eq_ok, exists_unit, throwIf_eq_ok,
    pure_eq_ok] at h
  obtain ⟨text, htext, -, rfl⟩ := h
  cases value with
  | string s => rw [Option.some.inj htext]
  | _ => cases htext

theorem exactDocument_eq_ok {index : IndexContents} {detail : Json}
    {documentId semanticText : String} {material : ReviewMaterial}
    (h : exactDocument index detail documentId semanticText = .ok material) :
    index.material documentId = some material ∧ material.documentId = documentId := by
  simp only [exactDocument, bind_eq_ok, exists_unit, throwIf_eq_ok, pure_eq_ok, not_or,
    not_not] at h
  obtain ⟨count, -, -, htexts, hpointers, -, rfl⟩ := h
  -- the text and the count of the hit are those of the index
  refine ⟨?_, rfl⟩
  rw [IndexContents.material, htexts, hpointers.1]

/-- An accepted hit shows what the index says of its document, whatever its ranks and scores. -/
theorem exactHit_eq_ok {indexes : List IndexContents} {hit : Json} {material : ReviewMaterial}
    {shown : PrivateHit} (h : exactHit reading indexes hit = .ok (material, shown))
    (queryId : String) :
    HitOf shown.datasetSha256 material.documentId hit ∧
      materialOf indexes (candidate queryId shown.datasetSha256 material.documentId) =
        some material := by
  simp only [exactHit, bind_eq_ok, exists_unit, throwIf_eq_ok, orThrow_eq_ok, pure_eq_ok,
    Prod.mk.injEq] at h
  obtain ⟨-, datasetSha, hsha, index, hindex, -, _, -, _, -, -, -, -, documentId, hdocument,
    semanticText, -, -, material', hmaterial, rfl, rfl⟩ := h
  obtain ⟨hshown, hid⟩ := exactDocument_eq_ok hmaterial
  refine ⟨⟨requireSha256_eq_ok hsha, ?_⟩, ?_⟩
  · rw [hid]
    exact requireText_eq_ok hdocument
  · show (indexes.find? fun index => index.datasetSha256 = datasetSha).bind _ = _
    rw [hindex, Option.bind_some, hid]
    exact hshown

/-! ### The hits of one result -/

theorem HitOf.inj {datasetSha documentId datasetSha' documentId' : String} {hit : Json}
    (h : HitOf datasetSha documentId hit) (h' : HitOf datasetSha' documentId' hit) :
    datasetSha = datasetSha' ∧ documentId = documentId' :=
  ⟨Json.string.inj (h.1.symm.trans h'.1), Json.string.inj (h.2.symm.trans h'.2)⟩

/-- Some hit of the list is one of the candidate. -/
def AnyHitOf (queryId : String) (hits : List Json) (key : Candidate) : Prop :=
  key.1 = queryId ∧ ∃ hit ∈ hits, HitOf key.2.1 key.2.2 hit

instance (queryId : String) (hits : List Json) : DecidablePred (AnyHitOf queryId hits) :=
  fun key => by unfold AnyHitOf; infer_instance

/-- The pool after some hits of a result, compared with the pool before them. -/
structure HitsPooled (indexes : List IndexContents) (queryId : String) (ordinal : ℕ)
    (before : Pool) (hits : List Json) (state : Pool × List (String × String)) : Prop where
  seen : ∀ datasetSha documentId, (datasetSha, documentId) ∈ state.2 ↔
    ∃ hit ∈ hits, HitOf datasetSha documentId hit
  pooled : ∀ key, state.1.pooled.get? key =
    if AnyHitOf queryId hits key then materialOf indexes key else before.pooled.get? key
  provenance : ∀ key, ((state.1.provenance.get? key).getD []).map (·.resultOrdinal) =
    ((before.provenance.get? key).getD []).map (·.resultOrdinal) ++
      if AnyHitOf queryId hits key then [ordinal] else []
  found : ∀ key, AnyHitOf queryId hits key → (materialOf indexes key).isSome

variable {indexes : List IndexContents}

theorem anyHitOf_concat {queryId : String} {hits : List Json} {hit : Json} {key : Candidate} :
    AnyHitOf queryId (hits ++ [hit]) key ↔
      AnyHitOf queryId hits key ∨ key.1 = queryId ∧ HitOf key.2.1 key.2.2 hit := by
  simp only [AnyHitOf, List.mem_append, List.mem_singleton, or_and_right, exists_or,
    exists_eq_left, and_or_left]

/-- **One hit.** -/
theorem poolHit_step {queryId : String} {result : Json} {ordinal position : ℕ} {before : Pool}
    {hits : List Json} {hit : Json} {state state' : Pool × List (String × String)}
    (h : HitsPooled indexes queryId ordinal before hits state)
    (hrun : poolHit reading indexes queryId result ordinal state (hit, position) = .ok state') :
    HitsPooled indexes queryId ordinal before (hits ++ [hit]) state' := by
  obtain ⟨pool, seen⟩ := state
  simp only [poolHit, bind_eq_ok, exists_unit, throwIf_eq_ok, pure_eq_ok, Prod.exists] at hrun
  obtain ⟨material, shown, hexact, -, -, hnew, -, rfl⟩ := hrun
  obtain ⟨hhit, hmaterial⟩ := exactHit_eq_ok hexact queryId
  have hkey {key : Candidate} : key.1 = queryId ∧ HitOf key.2.1 key.2.2 hit ↔
      key = candidate queryId shown.datasetSha256 material.documentId := by
    constructor
    · rintro ⟨rfl, hof⟩
      obtain ⟨hsha, hid⟩ := hof.inj hhit
      rw [← hsha, ← hid]
      rfl
    · rintro rfl
      exact ⟨rfl, hhit⟩
  -- the result has not returned this document before
  have hfresh : ¬ AnyHitOf queryId hits
      (candidate queryId shown.datasetSha256 material.documentId) := fun hold =>
    hnew ((h.seen _ _).mpr hold.2)
  refine ⟨fun datasetSha documentId => ?_, fun key => ?_, fun key => ?_, fun key hany => ?_⟩
  · rw [List.mem_append, h.seen, List.mem_singleton]
    simp only [List.mem_append, List.mem_singleton, or_and_right, exists_or, exists_eq_left]
    refine or_congr_right ⟨fun heq => ?_, fun hof => ?_⟩
    · cases heq
      exact hhit
    · obtain ⟨rfl, rfl⟩ := hof.inj hhit
      rfl
  · simp only [Pool.add, SortedMap.get?_insert, anyHitOf_concat, hkey]
    by_cases heq : key = candidate queryId shown.datasetSha256 material.documentId
    · subst heq
      rw [if_pos rfl, if_pos (.inr rfl), hmaterial]
    · rw [if_neg heq, h.pooled]
      simp only [heq, or_false]
  · simp only [Pool.add, SortedMap.get?_insert, anyHitOf_concat, hkey]
    by_cases heq : key = candidate queryId shown.datasetSha256 material.documentId
    · subst heq
      have hpast := h.provenance (candidate queryId shown.datasetSha256 material.documentId)
      rw [if_neg hfresh, List.append_nil] at hpast
      rw [if_pos rfl, if_pos (.inr rfl), Option.getD_some, List.map_append, hpast]
      rfl
    · rw [if_neg heq, h.provenance]
      simp only [heq, or_false]
  · rw [anyHitOf_concat, hkey] at hany
    rcases hany with hany | rfl
    · exact h.found key hany
    · rw [hmaterial]
      rfl

/-- All hits of a result. -/
theorem poolHits_run {queryId : String} {result : Json} {ordinal : ℕ} {before : Pool}
    {hits : List Json} {state : Pool × List (String × String)}
    (h : hits.zipIdx.foldlM (poolHit reading indexes queryId result ordinal) (before, []) =
      .ok state) : HitsPooled indexes queryId ordinal before hits state := by
  refine foldlM_zipIdx_invariant (P := HitsPooled indexes queryId ordinal before) ?_
    (fun pre hit post state state' _ hpre hrun => poolHit_step hpre hrun) h
  have hnone (key : Candidate) : ¬ AnyHitOf queryId [] key := by
    rintro ⟨-, hit, hmem, -⟩
    cases hmem
  refine ⟨fun _ _ => ⟨nofun, ?_⟩, fun key => ?_, fun key => ?_, fun key hany =>
    absurd hany (hnone key)⟩
  · rintro ⟨hit, hmem, -⟩
    cases hmem
  · rw [if_neg (hnone key)]
  · rw [if_neg (hnone key), List.append_nil]

/-! ### The results of a run -/

/-- The pool after some results of a run. -/
structure ResultsPooled (indexes : List IndexContents) (results : List Json)
    (state : Pool × SortedMap String Json) : Prop where
  pooled : ∀ key, state.1.pooled.get? key =
    if Returned results key then materialOf indexes key else none
  provenance : ∀ key, ((state.1.provenance.get? key).getD []).map (·.resultOrdinal) =
    returningOrdinals results key
  found : ∀ key, Returned results key → (materialOf indexes key).isSome
  queries : ∀ queryId query, state.2.get? queryId = some query →
    ∃ result ∈ results, result.member "query_id" = .string queryId ∧
      result.member "query" = query

theorem returned_concat {results : List Json} {result : Json} {key : Candidate} :
    Returned (results ++ [result]) key ↔ Returned results key ∨ ReturnedBy result key := by
  simp only [Returned, List.mem_append, List.mem_singleton, or_and_right, exists_or,
    exists_eq_left]

theorem returningOrdinals_concat (results : List Json) (result : Json) (key : Candidate) :
    returningOrdinals (results ++ [result]) key =
      returningOrdinals results key ++ if ReturnedBy result key then [results.length] else [] := by
  unfold returningOrdinals
  rw [List.zipIdx_append, List.filter_append, List.map_append, Nat.zero_add]
  congr 1
  by_cases hreturned : ReturnedBy result key
  · simp [hreturned]
  · simp [hreturned]

/-- **One result.** -/
theorem poolResult_step {results : List Json} {result : Json}
    {state state' : Pool × SortedMap String Json} (h : ResultsPooled indexes results state)
    (hrun : poolResult reading indexes state (result, results.length) = .ok state') :
    ResultsPooled indexes (results ++ [result]) state' := by
  simp only [poolResult, bind_eq_ok, orThrow_eq_ok, pure_eq_ok, Prod.exists] at hrun
  obtain ⟨queryId, hquery, pool, seen, hhits, rfl⟩ := hrun
  have hqueryId : result.member "query_id" = .string queryId := by
    cases hvalue : result.member "query_id" <;> rw [hvalue] at hquery <;> cases hquery
    rfl
  have hpooled := poolHits_run hhits
  have hreturned {key : Candidate} : AnyHitOf queryId (hitsOf result) key ↔
      ReturnedBy result key := by
    rw [AnyHitOf, ReturnedBy, hqueryId, Json.string.injEq, eq_comm]
  refine ⟨fun key => ?_, fun key => ?_, fun key hkey => ?_, fun id query hget => ?_⟩
  · simp only [hpooled.pooled, h.pooled, hreturned, returned_concat]
    by_cases hby : ReturnedBy result key
    · rw [if_pos hby, if_pos (.inr hby)]
    · simp only [hby, if_false, or_false]
  · rw [hpooled.provenance, h.provenance, returningOrdinals_concat]
    simp only [hreturned]
  · rcases returned_concat.mp hkey with hkey | hkey
    · exact h.found key hkey
    · exact hpooled.found key (hreturned.mpr hkey)
  · simp only [SortedMap.get?_insert] at hget
    split at hget
    · next hid =>
      subst hid
      exact ⟨result, List.mem_append_right _ (List.mem_singleton_self _), hqueryId,
        Option.some.inj hget⟩
    · obtain ⟨older, hmem, hold⟩ := h.queries id query hget
      exact ⟨older, List.mem_append_left _ hmem, hold⟩

theorem poolResults_run {results : List Json} {state : Pool × SortedMap String Json}
    (h : results.zipIdx.foldlM (poolResult reading indexes) (⟨.empty, .empty⟩, .empty) =
      .ok state) : ResultsPooled indexes results state := by
  refine foldlM_zipIdx_invariant (P := ResultsPooled indexes) ?_
    (fun pre result post state state' _ hpre hrun => poolResult_step hpre hrun) h
  have hnone (key : Candidate) : ¬ Returned [] key := by
    rintro ⟨result, hmem, -⟩
    cases hmem
  refine ⟨fun key => ?_, fun key => rfl, fun key hkey => absurd hkey (hnone key),
    fun _ _ hget => ?_⟩
  · rw [if_neg (hnone key)]
    rfl
  · cases hget

/-! ### The queries of a run -/

/-- The text of a query in the fixture. -/
def queryText (fixture : List FixtureQuery) (queryId : String) : String :=
  ((fixture.find? fun q => q.queryId = queryId).map (·.query)).getD ""

/-- Every result carries the text of its query. -/
def QueriesBound (fixture : List FixtureQuery) (results : List Json) : Prop :=
  ∀ result ∈ results, ∀ queryId, result.member "query_id" = .string queryId →
    result.member "query" = .string (queryText fixture queryId)

theorem boundRequest_eq_ok {fixture : List FixtureQuery} {request : Json} {ordinal : ℕ}
    {surface : String × String} (h : boundRequest fixture request ordinal = .ok surface) :
    ∃ queryId, request.member "query_id" = .string queryId ∧
      request.member "query" = .string (queryText fixture queryId) := by
  simp only [boundRequest, bind_eq_ok, orThrow_eq_ok, exists_unit, throwIf_eq_ok, pure_eq_ok,
    not_or, not_not] at h
  obtain ⟨_, htext, text, rfl, ⟨hquery, -⟩, queryId, hqueryId, -⟩ := h
  have hid : request.member "query_id" = .string queryId := by
    cases hvalue : request.member "query_id" <;> rw [hvalue] at hqueryId <;> cases hqueryId
    rfl
  refine ⟨queryId, hid, ?_⟩
  rw [hid, fixtureText] at htext
  rw [Json.pyEq_string.mp hquery, queryText, Except.ok.inj htext]
  rfl

theorem validateSurface_bound {fixture : List FixtureQuery} {catalogueSha : String}
    {observed observed' : List (String × String)} {request result : Json} {ordinal : ℕ}
    (h : validateSurface fixture catalogueSha observed ((request, result), ordinal) =
      .ok observed') : QueriesBound fixture [result] := by
  simp only [validateSurface, bind_eq_ok, exists_unit, throwIf_eq_ok, pure_eq_ok, not_not] at h
  obtain ⟨-, surface, hbound, -, topN, -, -, -, hrepeats, -⟩ := h
  obtain ⟨-, hsameId, -, hsameQuery, -⟩ := hrepeats
  obtain ⟨queryId, hid, hquery⟩ := boundRequest_eq_ok hbound
  rw [hid] at hsameId
  rw [hquery] at hsameQuery
  intro result' hmem queryId' hid'
  obtain rfl := List.mem_singleton.mp hmem
  -- the result names the query of its request, so it carries that query's text
  obtain rfl := Json.string.inj ((Json.pyEq_string.mp hsameId).symm.trans hid')
  exact Json.pyEq_string.mp hsameQuery

theorem closure_bound {manifest : Json} {requests results : List Json}
    {fixture : List FixtureQuery}
    (h : validateRequestResultClosure manifest requests results fixture = .ok ()) :
    QueriesBound fixture results := by
  simp only [validateRequestResultClosure, bind_eq_ok, exists_unit, throwIf_eq_ok, not_not] at h
  obtain ⟨catalogueSha, -, hlength, observed, hrows, -⟩ := h
  have hbound : QueriesBound fixture ((requests.zip results).map Prod.snd) := by
    refine foldlM_zipIdx_invariant (P := fun pairs _ => QueriesBound fixture (pairs.map Prod.snd))
      nofun (fun pre pair post state state' _ hpre hrun => ?_) hrows
    obtain ⟨request, result⟩ := pair
    rw [List.map_append]
    intro result' hmem
    rcases List.mem_append.mp hmem with hmem | hmem
    · exact hpre result' hmem
    · exact validateSurface_bound hrun result' hmem
  rwa [List.map_snd_zip hlength.ge] at hbound

/-! ### The rows -/

/-- The row of a candidate: it is named by the candidate, and shows the query of the fixture
and what the index says of the document. -/
def rowOf (prims : Primitives) (fixtureSha : String) (fixture : List FixtureQuery)
    (entry : Candidate × ReviewMaterial) : ReviewRow :=
  { candidateId := candidateId prims fixtureSha entry.1
    queryId := entry.1.1
    query := .string (queryText fixture entry.1.1)
    material := entry.2 }

/-- The rows of an accepted run, in terms of what it returned. -/
theorem poolRows_eq_ok {results : List Json} {fixtureSha : String} {loaded : List LoadedIndex}
    {fixture : List FixtureQuery} {rows : List ReviewRow × List ProvenanceRow}
    (hbound : QueriesBound fixture results)
    (h : poolRows prims reading results fixtureSha loaded = .ok rows) :
    ∃ indexes pool queries, loaded.mapM (openIndex reading) = .ok indexes ∧
      ResultsPooled indexes results (pool, queries) ∧
      (pool.pooled.keys.map (candidateId prims fixtureSha)).Nodup ∧
      rows.1 = (Ranking.sortBy (fun entry => candidateId prims fixtureSha entry.1)
        pool.pooled.entries).map (rowOf prims fixtureSha fixture) ∧
      rows.2 = (Ranking.sortBy (candidateId prims fixtureSha) pool.pooled.keys).map
        (provenanceRow prims fixtureSha pool.provenance) := by
  simp only [poolRows, bind_eq_ok, exists_unit, throwIf_eq_ok, pure_eq_ok, not_not,
    Prod.exists] at h
  obtain ⟨indexes, hindexes, pool, queries, hpool, shown, hshown, -, hnodup, rfl⟩ := h
  have hresults := poolResults_run hpool
  have hrow : ∀ entry row, reviewRow prims fixtureSha queries entry = .ok row →
      rowOf prims fixtureSha fixture entry = row := by
    intro entry row hrow
    simp only [reviewRow, bind_eq_ok, orThrow_eq_ok, pure_eq_ok] at hrow
    obtain ⟨query, hquery, rfl⟩ := hrow
    obtain ⟨result, hmem, hid, rfl⟩ := hresults.queries _ _ hquery
    rw [hbound result hmem _ hid]
    rfl
  -- so the rows are those of the candidates, in the order of the pool
  have hrows : List.Forall₂ (· = ·) (pool.pooled.entries.map (rowOf prims fixtureSha fixture))
      shown := List.forall₂_map_left_iff.mpr ((mapM_eq_ok.mp hshown).imp hrow)
  rw [List.forall₂_eq_eq_eq] at hrows
  subst hrows
  have hids : (pool.pooled.entries.map fun entry => candidateId prims fixtureSha entry.1).Nodup := by
    have hperm := (Ranking.sortBy_perm (·.candidateId)
      (pool.pooled.entries.map (rowOf prims fixtureSha fixture))).map (·.candidateId)
    rw [hperm.nodup_iff, List.map_map] at hnodup
    exact hnodup
  have hkeys : (pool.pooled.keys.map (candidateId prims fixtureSha)).Nodup := by
    rw [SortedMap.keys, List.map_map]
    exact hids
  exact ⟨indexes, pool, queries, hindexes, hresults, hkeys, Ranking.sortBy_map _ hids,
    Ranking.sortBy_map _ hkeys⟩

/-! ### The indexes of a catalogue -/

/-- The value is a file below the catalogue's directory, without its own digest. -/
def IsManifestBody (reading : Reading) (files : Files) (body : Json) : Prop :=
  ∃ path raw value digest, files path = some raw ∧ reading.decodeJson raw = some value ∧
    value.remove "component_sha256" = some (digest, body)

/-- The bytes whose digests name the parts of an index. -/
def Identified (prims : Primitives) (reading : Reading) (files : Files) (bytes : List UInt8) :
    Prop :=
  (∃ path, files path = some bytes) ∨
    ∃ body, IsManifestBody reading files body ∧ prims.canonicalJsonBytes body = bytes

/-- The hash does not collide on what two directories hold, and values with one canonical
form are equal. -/
structure Unambiguous (prims : Primitives) (reading : Reading) (files files' : Files) : Prop where
  digests : ∀ a b, Identified prims reading files a → Identified prims reading files' b →
    prims.sha256 a = prims.sha256 b → a = b
  bodies : ∀ a b, IsManifestBody reading files a → IsManifestBody reading files' b →
    prims.canonicalJsonBytes a = prims.canonicalJsonBytes b → a.pyEq b = true

/-- The bytes are those of a file, and their digest is written in the manifest. -/
def Described (prims : Primitives) (files : Files) (body : Json) (key : String)
    (bytes : List UInt8) : Prop :=
  (∃ path, files path = some bytes) ∧
    (body.member key).member "sha256" = .string (sha256Text prims bytes)

variable {files files' : Files}

theorem validateObject_described {root : List String} {summary : Json} {label : String}
    {bytes : List UInt8} (h : validateObject prims files root summary label = .ok bytes) :
    (∃ path, files path = some bytes) ∧
      summary.member "sha256" = .string (sha256Text prims bytes) := by
  simp only [validateObject, safeArtifact, bind_eq_ok, exists_unit, throwIf_eq_ok, orThrow_eq_ok,
    pure_eq_ok, Prod.exists, Prod.mk.injEq, not_or, not_not] at h
  obtain ⟨-, _, _, ⟨text, -, -, bytes', hfile, rfl, rfl⟩, size, -, digest, hdigest, ⟨-, hsame⟩,
    rfl⟩ := h
  rw [hsame]
  exact ⟨⟨_, hfile⟩, requireSha256_eq_ok hdigest⟩

theorem validateIndexBinding_eq_ok {entry index finalSha : Json} {component : String}
    (h : validateIndexBinding prims entry index finalSha = .ok component) :
    finalSha = .string component ∧
      ∃ digest body, index.remove "component_sha256" = some (digest, body) ∧
        component = (canonicalDigest prims body).val := by
  simp only [validateIndexBinding, componentSha256, bind_eq_ok, exists_unit, throwIf_eq_ok,
    orThrow_eq_ok, pure_eq_ok, Prod.exists, not_or, not_not] at h
  obtain ⟨_, -, _, ⟨digest, body, hremove, rfl⟩, ⟨rfl, hfinal⟩, -, -, _, _, -, _, _, _, -, -, _, -,
    _, -, _, -, -, _, -, _, -, _, -, _, -, -, -, rfl⟩ := h
  exact ⟨Json.pyEq_string.mp hfinal, digest, body, hremove, rfl⟩

/-- What an accepted index is known by. -/
theorem loadIndex_eq_ok {entry : Json} {loaded : LoadedIndex}
    (h : loadIndex prims reading files entry = .ok loaded) :
    loaded.entry = entry ∧ (entry.member "dataset_sha256").asStr = some loaded.datasetSha256 ∧
      ∃ body, IsManifestBody reading files body ∧
        loaded.componentSha256 = (canonicalDigest prims body).val ∧
        (entry.member "final_index").member "sha256" = .string loaded.componentSha256 ∧
        Described prims files body "lexical" loaded.lexical ∧
        Described prims files body "occurrence_lookup" loaded.lookup := by
  simp only [loadIndex, bind_eq_ok, exists_unit, throwIf_eq_ok, orThrow_eq_ok, pure_eq_ok,
    Prod.exists] at h
  obtain ⟨-, path, raw, hpath, index, hindex, -, component, hbinding, -, lexical, hlexical, lookup,
    hlookup, datasetSha, hdataset, rfl⟩ := h
  obtain ⟨hcomponent, digest, body, hbody, rfl⟩ := validateIndexBinding_eq_ok hbinding
  have hkept {key : String} (hne : key ≠ "component_sha256") :
      index.member key = body.member key := by
    rw [Json.member, Json.member, Json.get?_of_remove hbody hne]
  obtain ⟨hlexicalFile, hlexicalSha⟩ := validateObject_described hlexical
  obtain ⟨hlookupFile, hlookupSha⟩ := validateObject_described hlookup
  have hraw : files path = some raw := by
    simp only [safeArtifact, bind_eq_ok, exists_unit, throwIf_eq_ok, orThrow_eq_ok, pure_eq_ok,
      Prod.mk.injEq] at hpath
    obtain ⟨text, -, -, bytes, hfile, rfl, rfl⟩ := hpath
    exact hfile
  refine ⟨rfl, hdataset, body, ⟨path, raw, index, digest, hraw, hindex, hbody⟩, rfl, hcomponent,
    ⟨hlexicalFile, ?_⟩, ⟨hlookupFile, ?_⟩⟩
  · rw [← hkept (by decide)]
    exact hlexicalSha
  · rw [← hkept (by decide)]
    exact hlookupSha

/-- Bytes that equal manifests describe are the same. -/
theorem Described.congr (hclear : Unambiguous prims reading files files') {body body' : Json}
    {key : String} {bytes bytes' : List UInt8} (hsame : body.pyEq body' = true)
    (h : Described prims files body key bytes) (h' : Described prims files' body' key bytes') :
    bytes = bytes' := by
  have hdigest := Json.pyEq_member_member_string hsame h.2
  rw [h'.2, Json.string.injEq] at hdigest
  exact hclear.digests _ _ (.inl h.1) (.inl h'.1) (Subtype.ext hdigest.symm)

/-- The entry of an index in the catalogue determines what the index says. -/
theorem loadIndex_congr (hclear : Unambiguous prims reading files files') {entry : Json}
    {loaded loaded' : LoadedIndex} (h : loadIndex prims reading files entry = .ok loaded)
    (h' : loadIndex prims reading files' entry = .ok loaded') :
    openIndex reading loaded = openIndex reading loaded' := by
  obtain ⟨hentry, hdataset, body, hbody, hcomponent, hfinal, hlexical, hlookup⟩ := loadIndex_eq_ok h
  obtain ⟨hentry', hdataset', body', hbody', hcomponent', hfinal', hlexical', hlookup'⟩ :=
    loadIndex_eq_ok h'
  have hsha : loaded.componentSha256 = loaded'.componentSha256 :=
    Json.string.inj (hfinal.symm.trans hfinal')
  have hcanonical : prims.canonicalJsonBytes body = prims.canonicalJsonBytes body' :=
    hclear.digests _ _ (.inr ⟨body, hbody, rfl⟩) (.inr ⟨body', hbody', rfl⟩)
      (Subtype.ext (hcomponent.symm.trans (hsha.trans hcomponent')))
  have hsame := hclear.bodies body body' hbody hbody' hcanonical
  rw [openIndex, openIndex, hentry, hentry', hsha, Option.some.inj (hdataset.symm.trans hdataset'),
    hlexical.congr hclear hsame hlexical', hlookup.congr hclear hsame hlookup']

theorem openIndexes_congr (hclear : Unambiguous prims reading files files') {datasets : List Json}
    {loaded loaded' : List LoadedIndex} (h : loadIndexes prims reading files datasets = .ok loaded)
    (h' : loadIndexes prims reading files' datasets = .ok loaded') :
    loaded.mapM (openIndex reading) = loaded'.mapM (openIndex reading) := by
  unfold loadIndexes at h h'
  rw [mapM_eq_ok] at h h'
  induction h generalizing loaded' with
  | nil => cases h'; rfl
  | cons hload _ ih =>
    cases h' with
    | cons hload' hrest' =>
      rw [List.mapM_cons, List.mapM_cons, loadIndex_congr hclear hload hload', ih hrest']

/-! ### Main results -/

/-- One row for each candidate that a result returned, under ascending identifiers, and a
private row for it that lists the results that returned it, in their order. -/
structure CompletePool (prims : Primitives) (fixtureSha : String) (results : List Json)
    (rows : List ReviewRow × List ProvenanceRow) : Prop where
  ascending : (rows.1.map (·.candidateId)).Pairwise (· < ·)
  candidates : ∃ keys : List Candidate, keys.Nodup ∧ (∀ key, key ∈ keys ↔ Returned results key) ∧
    rows.1.map (fun row => (row.candidateId, row.queryId, row.material.documentId)) =
      keys.map (fun key => (candidateId prims fixtureSha key, key.1, key.2.2)) ∧
    rows.2.map (fun row => (row.candidateId,
        candidate row.queryId row.datasetSha256 row.documentId,
        row.systems.map (·.resultOrdinal))) =
      keys.map (fun key => (candidateId prims fixtureSha key, key, returningOrdinals results key))

theorem materialOf_documentId {key : Candidate} {material : ReviewMaterial}
    (h : materialOf indexes key = some material) : material.documentId = key.2.2 := by
  obtain ⟨index, -, hmaterial⟩ := Option.bind_eq_some_iff.mp h
  unfold IndexContents.material at hmaterial
  split at hmaterial
  · rw [← Option.some.inj hmaterial]
  · cases hmaterial

theorem returningOrdinals_pairwise (results : List Json) (key : Candidate) :
    (returningOrdinals results key).Pairwise (· ≤ ·) := by
  have hpositions : (results.zipIdx.map Prod.snd).Pairwise (· ≤ ·) := by
    rw [List.zipIdx_map_snd]
    exact List.pairwise_le_range'
  exact hpositions.sublist (List.filter_sublist.map _)

/-- The systems of a private row. -/
theorem provenanceRow_systems {results : List Json} {state : Pool × SortedMap String Json}
    (h : ResultsPooled indexes results state) (fixtureSha : String) (key : Candidate) :
    (provenanceRow prims fixtureSha state.1.provenance key).systems.map (·.resultOrdinal) =
      returningOrdinals results key := by
  have hsorted : ((state.1.provenance.get? key).getD []).Pairwise
      (·.resultOrdinal ≤ ·.resultOrdinal) := by
    rw [← List.pairwise_map, h.provenance]
    exact returningOrdinals_pairwise results key
  show (Ranking.sortBy _ _).map _ = _
  rw [Ranking.sortBy_of_pairwise hsorted, h.provenance]

theorem poolRows_complete {results : List Json} {fixtureSha : String} {loaded : List LoadedIndex}
    {fixture : List FixtureQuery} {rows : List ReviewRow × List ProvenanceRow}
    (hbound : QueriesBound fixture results)
    (h : poolRows prims reading results fixtureSha loaded = .ok rows) :
    CompletePool prims fixtureSha results rows := by
  obtain ⟨indexes, pool, queries, -, hpooled, hids, hrows, hprivate⟩ := poolRows_eq_ok hbound h
  have hentryIds : (pool.pooled.entries.map fun entry =>
      candidateId prims fixtureSha entry.1).Nodup := by
    rwa [SortedMap.keys, List.map_map] at hids
  have hdocument : ∀ entry ∈ pool.pooled.entries, entry.2.documentId = entry.1.2.2 := by
    intro entry hmem
    have hget := SortedMap.get?_eq_some_iff.mpr hmem
    rw [hpooled.pooled] at hget
    split at hget
    · exact materialOf_documentId hget
    · cases hget
  refine ⟨?_, Ranking.sortBy (candidateId prims fixtureSha) pool.pooled.keys, ?_, fun key => ?_,
    ?_, ?_⟩
  · rw [hrows, List.map_map, List.pairwise_map]
    exact Ranking.sortBy_pairwise_lt hentryIds
  · exact (Ranking.sortBy_perm _ _).nodup_iff.mpr pool.pooled.nodup_keys
  · rw [Ranking.mem_sortBy, SortedMap.mem_keys_iff, hpooled.pooled]
    constructor
    · rintro ⟨material, hmaterial⟩
      by_contra hnot
      rw [if_neg hnot] at hmaterial
      cases hmaterial
    · intro hkey
      rw [if_pos hkey]
      exact Option.isSome_iff_exists.mp (hpooled.found key hkey)
  · rw [hrows, List.map_map, SortedMap.keys, Ranking.sortBy_map Prod.fst hentryIds, List.map_map]
    refine List.map_congr_left fun entry hmem => ?_
    show (_, _, entry.2.documentId) = (_, _, entry.1.2.2)
    rw [hdocument entry (Ranking.mem_sortBy.mp hmem)]
    rfl
  · rw [hprivate, List.map_map]
    refine List.map_congr_left fun key _ => ?_
    show (_, _, (provenanceRow prims fixtureSha pool.provenance key).systems.map _) = _
    rw [provenanceRow_systems hpooled fixtureSha key]
    rfl

/-- The rows that reviewers see are a function of the fixture, the indexes and the candidates. -/
theorem poolRows_blinded {results results' : List Json} {fixtureSha : String}
    {loaded loaded' : List LoadedIndex} {fixture : List FixtureQuery}
    {rows rows' : List ReviewRow × List ProvenanceRow}
    (hbound : QueriesBound fixture results) (hbound' : QueriesBound fixture results')
    (hindexes : loaded.mapM (openIndex reading) = loaded'.mapM (openIndex reading))
    (hreturned : ∀ key, Returned results key ↔ Returned results' key)
    (h : poolRows prims reading results fixtureSha loaded = .ok rows)
    (h' : poolRows prims reading results' fixtureSha loaded' = .ok rows') : rows.1 = rows'.1 := by
  obtain ⟨indexes, pool, queries, hopen, hpooled, -, hrows, -⟩ := poolRows_eq_ok hbound h
  obtain ⟨indexes', pool', queries', hopen', hpooled', -, hrows', -⟩ := poolRows_eq_ok hbound' h'
  obtain rfl : indexes = indexes' := Except.ok.inj (hopen.symm.trans (hindexes.trans hopen'))
  have hsame : pool.pooled = pool'.pooled := by
    refine SortedMap.ext_get? fun key => ?_
    rw [hpooled.pooled, hpooled'.pooled]
    simp only [hreturned]
  rw [hrows, hrows', hsame]

/-! ### Whole runs of the tool -/

/-- The datasets of an accepted catalogue are those that its bytes list. -/
theorem validateCatalogue_eq_ok {raw : List UInt8} {manifest : Json} {datasets : List Json}
    (h : validateCatalogue prims reading raw manifest = .ok datasets) :
    (reading.decodeJson raw).bind (fun catalogue => (catalogue.member "datasets").asArray) =
      some datasets := by
  simp only [validateCatalogue, bind_eq_ok, exists_unit, throwIf_eq_ok, orThrow_eq_ok,
    pure_eq_ok] at h
  obtain ⟨catalogue, hcatalogue, -, -, _, -, _, -, -, _, -, _, -, -, datasets, hdatasets, -, _, -,
    rfl⟩ := h
  rw [hcatalogue]
  exact hdatasets

theorem validateFixture_sha {raw : List UInt8} {fixtureSha : String} {fixture : List FixtureQuery}
    (h : validateFixture prims reading raw = .ok (fixtureSha, fixture)) :
    fixtureSha = sha256Text prims raw := by
  simp only [validateFixture, bind_eq_ok, exists_unit, throwIf_eq_ok, orThrow_eq_ok, pure_eq_ok,
    Prod.mk.injEq] at h
  obtain ⟨_, -, -, _, -, -, _, -, rfl, -⟩ := h
  rfl

variable {furtherChecks : ReviewInputs → List LoadedIndex → List ReviewRow → Result Unit}

/-- What an accepted run is made of. -/
theorem buildReviewPool_eq_ok {inputs : ReviewInputs}
    {rows : List ReviewRow × List ProvenanceRow}
    (h : buildReviewPool prims reading furtherChecks inputs = .ok rows) :
    ∃ fixture datasets loaded,
      validateFixture prims reading inputs.fixture =
        .ok (sha256Text prims inputs.fixture, fixture) ∧
      QueriesBound fixture inputs.results ∧
      (reading.decodeJson inputs.catalogue).bind
        (fun catalogue => (catalogue.member "datasets").asArray) = some datasets ∧
      loadIndexes prims reading inputs.files datasets = .ok loaded ∧
      poolRows prims reading inputs.results (sha256Text prims inputs.fixture) loaded =
        .ok rows := by
  simp only [buildReviewPool, bind_eq_ok, exists_unit, pure_eq_ok, Prod.exists] at h
  obtain ⟨fixtureSha, fixture, hfixture, hclosure, datasets, hdatasets, loaded, hloaded, rows1,
    rows2, hrows, -, rfl⟩ := h
  obtain rfl := validateFixture_sha hfixture
  exact ⟨fixture, datasets, loaded, hfixture, closure_bound hclosure,
    validateCatalogue_eq_ok hdatasets, hloaded, hrows⟩

/-- **The pool is complete and blinded.** -/
theorem review_pool_blinded {inputs : ReviewInputs} {rows : List ReviewRow × List ProvenanceRow}
    (haccepted : buildReviewPool prims reading furtherChecks inputs = .ok rows) :
    CompletePool prims (sha256Text prims inputs.fixture) inputs.results rows ∧
      ∀ inputs' rows', inputs'.fixture = inputs.fixture → inputs'.catalogue = inputs.catalogue →
        Unambiguous prims reading inputs.files inputs'.files →
        buildReviewPool prims reading furtherChecks inputs' = .ok rows' →
        (∀ key, Returned inputs.results key ↔ Returned inputs'.results key) →
        reviewPoolBytes prims rows'.1 = reviewPoolBytes prims rows.1 := by
  obtain ⟨fixture, datasets, loaded, hfixture, hbound, hdatasets, hloaded, hrows⟩ :=
    buildReviewPool_eq_ok haccepted
  refine ⟨poolRows_complete hbound hrows, ?_⟩
  intro inputs' rows' hsameFixture hsameCatalogue hclear haccepted' hreturned
  obtain ⟨fixture', datasets', loaded', hfixture', hbound', hdatasets', hloaded', hrows'⟩ :=
    buildReviewPool_eq_ok haccepted'
  rw [hsameFixture] at hfixture' hrows'
  rw [hsameCatalogue] at hdatasets'
  obtain rfl : fixture = fixture' :=
    congrArg Prod.snd (Except.ok.inj (hfixture.symm.trans hfixture'))
  obtain rfl : datasets = datasets' := Option.some.inj (hdatasets.symm.trans hdatasets')
  rw [poolRows_blinded hbound hbound' (openIndexes_congr hclear hloaded hloaded') hreturned hrows
    hrows']

/-! ### A catalogue of one document

One run finds the document by its words, another by its vector. -/

def textOf (value : Json) : List UInt8 := samplePrimitives.canonicalJsonBytes value

def sampleShaText (n : ℕ) : Json := .string (hexDigest n).val

def sampleRef (n : ℕ) : Json := .object [("sha256", sampleShaText n)]

def sampleFixture : Json := .object
  [("queries", .array [.object [("query", .string "t"), ("query_id", .string "q")]]),
    ("schema_version", .string "livefire.rag.generic-evidence-pilot-queries/1")]

def sampleProfile : Json := .object
  [("id", .string "p"), ("sha256", sampleShaText 1), ("version", .string "1")]

def sampleDatasetJson : Json := .object
  [("id", .string "d"), ("mapping", sampleRef 2), ("source_snapshot", sampleRef 3)]

def sampleDatasetSha : Json := .string (canonicalDigest samplePrimitives sampleDatasetJson).val

def sampleSummary (path : String) (byte : UInt8) : List (String × Json) :=
  [("bytes", .number (.posInt 1)), ("path", .string path),
    ("sha256", .string (sha256Text samplePrimitives [byte]))]

/-- The manifest of the index, without its digest. -/
def sampleIndexFields : List (String × Json) :=
  [("documents", .object [("rows", .number (.posInt 1))]),
    ("lexical", .object (sampleSummary "l" 7 ++ [("schema", .string "sqlite-inverted-bm25-v1")])),
    ("occurrence_lookup", .object (sampleSummary "o" 8)),
    ("occurrences", .object [("rows", .number (.posInt 1))]),
    ("pipeline_provenance", .object [("dataset_sha256", sampleDatasetSha),
      ("embedding_plan_sha256", sampleShaText 4), ("embedding_result_set_sha256", sampleShaText 5),
      ("prepared_corpus_sha256", sampleShaText 6)]),
    ("source", .object [("mapping_sha256", sampleShaText 2), ("snapshot_sha256", sampleShaText 3)])]

def sampleIndexBody : Json := .object
  (("build_scope", .string "full") :: ("complete", .bool true) :: sampleIndexFields)

def sampleIndexSha : Json := .string (canonicalDigest samplePrimitives sampleIndexBody).val

def sampleIndex : Json := .object
  (("build_scope", .string "full") :: ("complete", .bool true) ::
    ("component_sha256", sampleIndexSha) :: sampleIndexFields)

def sampleEntry : Json := .object
  [("dataset", sampleDatasetJson), ("dataset_sha256", sampleDatasetSha),
    ("embedding_plan", sampleRef 4), ("embedding_profile", sampleProfile),
    ("embedding_result_set", sampleRef 5),
    ("final_index", .object [("path", .string "i/m"), ("sha256", sampleIndexSha)]),
    ("prepared_corpus", sampleRef 6), ("searchable_document_count", .number (.posInt 1)),
    ("searchable_reference_count", .number (.posInt 1))]

def sampleCatalogueFields : List (String × Json) :=
  [("datasets", .array [sampleEntry]), ("embedding_profile", sampleProfile),
    ("schema_version", .string "livefire.rag.dataset-catalogue/1")]

def sampleCatalogueSha : Json :=
  .string (canonicalDigest samplePrimitives (.object sampleCatalogueFields)).val

def sampleCatalogue : Json :=
  .object (("component_sha256", sampleCatalogueSha) :: sampleCatalogueFields)

def sampleFiles : Files := fun path =>
  if path = ["i", "m"] then some (textOf sampleIndex)
  else if path = ["i", "l"] then some [7]
  else if path = ["i", "o"] then some [8]
  else none

/-- Stand-ins that read the four values of the sample. The rank is not looked at closely. -/
def sampleReading : Reading where
  decodeJson bytes := [sampleFixture, sampleCatalogue, sampleIndex].find? fun v => textOf v = bytes
  isFinite value := value.numericValue.isSome
  isReciprocalRank value rank := value = .number (.float 4580382309542058555) ∧ rank = 1
  documents bytes := if bytes = [7] then some [⟨.string "e", .string "text"⟩] else none
  occurrences bytes := if bytes = [8] then some [] else none

def sampleRequest (mode : String) : Json := .object
  [("mode", .string mode), ("query", .string "t"), ("query_id", .string "q"),
    ("relations", .array []), ("top_n", .number (.posInt 5))]

/-- The only document, scored. -/
def sampleHit (dense lexical : Json) : Json := .object
  [("dataset", sampleDatasetJson), ("dataset_sha256", sampleDatasetSha),
    ("hit", .object [("dense_score", dense), ("document_id", .string "e"),
      ("eligible_occurrence_count", .number (.posInt 0)), ("lexical_score", lexical),
      ("occurrences", .array []), ("occurrences_exhausted", .bool true),
      ("rank", .number (.posInt 1)), ("score", .number (.posInt 1)),
      ("semantic_text", .string "text")]),
    ("index_rank", .number (.posInt 1)), ("index_sha256", sampleIndexSha),
    ("rank", .number (.posInt 1)), ("reciprocal_rank_score", .number (.float 4580382309542058555))]

def sampleResult (mode : String) (hits : List Json) : Json := .object
  [("catalogue_sha256", sampleCatalogueSha), ("hits", .array hits), ("mode", .string mode),
    ("query", .string "t"), ("query_id", .string "q"),
    ("rank_merge", .string "reciprocal_rank_fusion_v1"), ("relations", .array []),
    ("schema_version", .string "livefire.rag.catalogue-batch-search-result/1"),
    ("top_n", .number (.posInt 5))]

def sampleInputs (dense lexical : List Json) : ReviewInputs where
  manifest := .object [("catalogue_sha256", sampleCatalogueSha),
    ("embedding_profile", sampleProfile)]
  requests := ["lexical", "dense", "fused"].map sampleRequest
  results := [sampleResult "lexical" lexical, sampleResult "dense" dense, sampleResult "fused" []]
  fixture := textOf sampleFixture
  catalogue := textOf sampleCatalogue
  files := sampleFiles

/-- The document, found by its vector. -/
def denseInputs : ReviewInputs := sampleInputs [sampleHit (.number (.posInt 1)) .null] []

/-- The document, found by its words. -/
def lexicalInputs : ReviewInputs := sampleInputs [] [sampleHit .null (.number (.posInt 2))]

/-- What the samples evaluate to. The two runs are accepted. -/
theorem sample_facts :
    (buildReviewPool samplePrimitives sampleReading (fun _ _ _ => .ok ()) denseInputs).isOk = true ∧
      (buildReviewPool samplePrimitives sampleReading (fun _ _ _ => .ok ())
        lexicalInputs).isOk = true ∧
      textOf sampleIndex = [1, 1, 1, 1] := by decide +kernel

/-- What is read from the files of the sample. -/
structure SampleReads : Prop where
  body : textOf sampleIndexBody ∈ [[1, 1, 1, 1], [7], [8]]
  index : sampleReading.decodeJson (textOf sampleIndex) = some sampleIndex
  seven : sampleReading.decodeJson [7] = none
  eight : sampleReading.decodeJson [8] = none
  remove : sampleIndex.remove "component_sha256" = some (sampleIndexSha, sampleIndexBody)
  distinct : ∀ a ∈ [[1, 1, 1, 1], [7], [8]], ∀ b ∈ [[1, 1, 1, 1], [7], [8]],
    samplePrimitives.sha256 a = samplePrimitives.sha256 b → a = b

theorem sample_reads : SampleReads := by
  have hfacts : textOf sampleIndexBody ∈ [[1, 1, 1, 1], [7], [8]] ∧
      sampleReading.decodeJson (textOf sampleIndex) = some sampleIndex ∧
      sampleReading.decodeJson [7] = none ∧ sampleReading.decodeJson [8] = none ∧
      sampleIndex.remove "component_sha256" = some (sampleIndexSha, sampleIndexBody) ∧
      ∀ a ∈ [[1, 1, 1, 1], [7], [8]], ∀ b ∈ [[1, 1, 1, 1], [7], [8]],
        samplePrimitives.sha256 a = samplePrimitives.sha256 b → a = b := by decide +kernel
  obtain ⟨body, index, seven, eight, remove, distinct⟩ := hfacts
  exact ⟨body, index, seven, eight, remove, distinct⟩

theorem sampleFiles_eq_some {path : List String} {bytes : List UInt8}
    (h : sampleFiles path = some bytes) : bytes ∈ [textOf sampleIndex, [7], [8]] := by
  unfold sampleFiles at h
  split at h
  · exact List.mem_cons.mpr (.inl (Option.some.inj h).symm)
  split at h
  · rw [← Option.some.inj h]
    exact List.mem_cons_of_mem _ List.mem_cons_self
  split at h
  · rw [← Option.some.inj h]
    exact List.mem_cons_of_mem _ (List.mem_cons_of_mem _ List.mem_cons_self)
  · cases h

theorem sample_manifestBody {body : Json} (h : IsManifestBody sampleReading sampleFiles body) :
    body = sampleIndexBody := by
  obtain ⟨path, raw, value, digest, hraw, hvalue, hbody⟩ := h
  have hmem := sampleFiles_eq_some hraw
  simp only [List.mem_cons, List.not_mem_nil, or_false] at hmem
  rcases hmem with rfl | rfl | rfl
  · obtain rfl := Option.some.inj (sample_reads.index.symm.trans hvalue)
    exact (congrArg Prod.snd (Option.some.inj (sample_reads.remove.symm.trans hbody))).symm
  · cases sample_reads.seven.symm.trans hvalue
  · cases sample_reads.eight.symm.trans hvalue

theorem sample_unambiguous : Unambiguous samplePrimitives sampleReading sampleFiles sampleFiles := by
  have hbytes {bytes : List UInt8} (h : Identified samplePrimitives sampleReading sampleFiles bytes) :
      bytes ∈ [[1, 1, 1, 1], [7], [8]] := by
    rcases h with ⟨path, hpath⟩ | ⟨body, hmanifest, rfl⟩
    · rw [← sample_facts.2.2]
      exact sampleFiles_eq_some hpath
    · rw [sample_manifestBody hmanifest]
      exact sample_reads.body
  refine ⟨fun a b ha hb hsame => ?_, fun a b ha hb _ => ?_⟩
  · exact sample_reads.distinct a (hbytes ha) b (hbytes hb) hsame
  · rw [sample_manifestBody ha, sample_manifestBody hb]
    exact .refl _

theorem hitOf_sampleHit {dense lexical : Json} {datasetSha documentId : String} :
    HitOf datasetSha documentId (sampleHit dense lexical) ↔
      sampleDatasetSha = .string datasetSha ∧ Json.string "e" = .string documentId := Iff.rfl

theorem sample_returned (key : Candidate) :
    Returned denseInputs.results key ↔ Returned lexicalInputs.results key := by
  have hquery (mode : String) (hits : List Json) :
      (sampleResult mode hits).member "query_id" = .string "q" := rfl
  have hhits (mode : String) (hits : List Json) : hitsOf (sampleResult mode hits) = hits := rfl
  simp only [Returned, ReturnedBy, denseInputs, lexicalInputs, sampleInputs, List.mem_cons,
    List.not_mem_nil, or_false, exists_eq_or_imp, exists_eq_left, hquery, hhits, hitOf_sampleHit,
    false_and, exists_false, and_false, false_or]

/-- Both runs are accepted, and reviewers are given the same bytes. -/
theorem sample_pool_blinded : ∃ rows rows',
    buildReviewPool samplePrimitives sampleReading (fun _ _ _ => .ok ()) denseInputs = .ok rows ∧
      buildReviewPool samplePrimitives sampleReading (fun _ _ _ => .ok ()) lexicalInputs =
        .ok rows' ∧
      CompletePool samplePrimitives (sha256Text samplePrimitives denseInputs.fixture)
        denseInputs.results rows ∧
      reviewPoolBytes samplePrimitives rows'.1 = reviewPoolBytes samplePrimitives rows.1 := by
  have hok {α : Type} {x : Result α} (h : x.isOk = true) : ∃ a, x = .ok a := by
    cases x with
    | ok a => exact ⟨a, rfl⟩
    | error e => cases h
  obtain ⟨hdense, hlexical, -⟩ := sample_facts
  obtain ⟨rows, hrows⟩ := hok hdense
  obtain ⟨rows', hrows'⟩ := hok hlexical
  obtain ⟨hcomplete, hblinded⟩ := review_pool_blinded hrows
  exact ⟨rows, rows', hrows, hrows', hcomplete,
    hblinded lexicalInputs rows' rfl rfl sample_unambiguous hrows' sample_returned⟩

end LivefireRag.Review
