import LivefireRag.Lib.Avoids
import LivefireRag.Pipeline.QueryVectorSet

/-!
# Opening a sealed query-vector set ends in an answer

Opening indexes the rows of the manifest by the position of a vector. The manifest was
checked before: its rows are as many as the vectors, so no index leaves its range
(`SealedQueryVectorSet.open_avoids_aborted`).
-/

namespace LivefireRag.Pipeline

open Machine Fallible Chunks

variable (prims : Primitives) (unitNorm : List F32 → Bool)

theorem componentDigest_avoids_aborted (value : Json) :
    Avoids .aborted (componentDigest prims value) := by
  unfold componentDigest
  split
  · exact avoids_bind (avoids_orThrow (by decide)) fun _ _ => avoids_pure _
  · exact avoids_error (by decide)

theorem ComponentRef.validate_avoids_aborted (component : ComponentRef) :
    Avoids .aborted component.validate := by
  unfold ComponentRef.validate
  exact avoids_bind (avoids_throwIf (by decide)) fun _ _ => avoids_throwIf (by decide)

theorem QueryVectorExecutionBinding.validate_avoids_aborted
    (binding : QueryVectorExecutionBinding) : Avoids .aborted (binding.validate prims) := by
  unfold QueryVectorExecutionBinding.validate
  iterate 3 refine avoids_bind (ComponentRef.validate_avoids_aborted _) fun _ _ => ?_
  refine avoids_bind (avoids_forM fun component _ => component.validate_avoids_aborted) fun _ _ => ?_
  refine avoids_bind (avoids_forM fun value _ => avoids_throwIf (by decide)) fun _ _ => ?_
  exact avoids_throwIf (by decide)

theorem QueryVectorSetManifest.validate_avoids_aborted (manifest : QueryVectorSetManifest) :
    Avoids .aborted (manifest.validate prims) := by
  unfold QueryVectorSetManifest.validate
  refine avoids_bind (avoids_throwIf (by decide)) fun _ _ => ?_
  refine avoids_bind (manifest.execution.validate_avoids_aborted prims) fun _ _ => ?_
  refine avoids_bind (avoids_throwIf (by decide)) fun _ _ => ?_
  iterate 2 refine avoids_bind (avoids_orThrow (by decide)) fun _ _ => ?_
  refine avoids_bind (avoids_throwIf (by decide)) fun _ _ => ?_
  refine avoids_bind (avoids_foldlM fun ids entry _ => ?_) fun _ _ => ?_
  · exact avoids_bind (avoids_throwIf (by decide)) fun _ _ => avoids_orThrow (by decide)
  · exact avoids_bind (componentDigest_avoids_aborted prims _) fun _ _ => avoids_throwIf (by decide)

theorem parsePlanRow_avoids_aborted (line : String) :
    Avoids .aborted (parsePlanRow prims line) := by
  unfold parsePlanRow
  refine avoids_bind ?_ fun value _ => ?_
  · cases prims.parseJson line with
    | ok value => exact avoids_ok value
    | error message => exact avoids_error (by nofun)
  · iterate 6 refine avoids_bind (avoids_orThrow (by decide)) fun _ _ => ?_
    refine avoids_bind (avoids_mapM fun relation _ => avoids_orThrow (by decide)) fun _ _ => ?_
    exact avoids_bind (avoids_throwIf (by decide)) fun _ _ => avoids_pure _

theorem scanPlanLine_avoids_aborted (scan : PlanScan) (line : String) :
    Avoids .aborted (scanPlanLine prims scan line) := by
  unfold scanPlanLine
  iterate 2 refine avoids_bind (avoids_orThrow (by decide)) fun _ _ => ?_
  refine avoids_bind (avoids_throwIf (by decide)) fun _ _ => ?_
  refine avoids_bind (parsePlanRow_avoids_aborted prims line) fun row _ => ?_
  refine avoids_bind (avoids_throwIf (by decide)) fun _ _ => ?_
  refine avoids_bind ?_ fun queryById _ => ?_
  · unfold PlanScan.bindQuery
    split
    · exact avoids_bind (avoids_throwIf (by decide)) fun _ _ => avoids_pure _
    · exact avoids_ok _
  · split
    · iterate 2 refine avoids_bind (avoids_orThrow (by decide)) fun _ _ => ?_
      exact avoids_pure _
    · exact avoids_pure _

theorem parseQueryPlan_avoids_aborted (bytes : List UInt8) :
    Avoids .aborted (parseQueryPlan prims bytes) := by
  unfold parseQueryPlan
  refine avoids_bind (avoids_throwIf (by decide)) fun _ _ => ?_
  refine avoids_bind (avoids_orThrow (by decide)) fun text _ => ?_
  refine avoids_bind (avoids_foldlM fun scan line _ => scanPlanLine_avoids_aborted prims scan line)
    fun _ _ => ?_
  exact avoids_bind (avoids_throwIf (by decide)) fun _ _ => avoids_pure _

/-- The vectors of the file are as many as the rows of the manifest. -/
theorem length_chunks_of_validate {manifest : QueryVectorSetManifest} {files : QueryVectorFiles}
    {vectors : List F32} (hvalid : manifest.validate prims = .ok ())
    (hlength : files.vectors.length = (manifest.vectors.bytes : ℕ))
    (hdecoded : decodeVectors files.vectors = .ok vectors) :
    (chunksExact manifest.vectors.dimensions vectors).length = manifest.queries.length := by
  simp only [QueryVectorSetManifest.validate, bind_eq_ok, exists_unit, throwIf_eq_ok,
    orThrow_eq_ok, checkedMul_eq_some, not_or, not_not] at hvalid
  obtain ⟨-, -, ⟨-, -, -, -, -, -, hrows, -, -, -, hdimensions, -⟩, values, ⟨-, hvalues⟩, bytes,
    ⟨-, hbytes⟩, hsize, -⟩ := hvalid
  simp only [decodeVectors, bind_eq_ok, exists_unit, throwIf_eq_ok, pure_eq_ok] at hdecoded
  obtain ⟨-, rfl⟩ := hdecoded
  have hpositive : 0 < (manifest.vectors.dimensions : ℕ) :=
    Nat.pos_of_ne_zero fun h => hdimensions (Fin.ext h)
  rw [chunksExact, List.length_map, List.length_range, List.length_map, chunksExact,
    List.length_map, List.length_range, hlength, hsize, ← hbytes, ← hvalues,
    Nat.mul_div_cancel _ (by decide), Nat.mul_div_cancel _ hpositive, hrows]

theorem SealedQueryVectorSet.open_avoids_aborted
    {readManifest : List UInt8 → Result QueryVectorSetManifest}
    (hread : ∀ bytes, Avoids .aborted (readManifest bytes)) (files : QueryVectorFiles)
    (expectedProfile : ComponentRef) (expectedReturnedModel : String) (expectedDimensions : U32)
    (expectedNormalization : String) (expectedQueryPlan : Option (List UInt8)) :
    Avoids .aborted (SealedQueryVectorSet.open prims unitNorm readManifest files expectedProfile
      expectedReturnedModel expectedDimensions expectedNormalization expectedQueryPlan) := by
  unfold SealedQueryVectorSet.open
  refine avoids_bind (avoids_throwIf (by decide)) fun _ _ => ?_
  refine avoids_bind (hread _) fun manifest _ => ?_
  refine avoids_bind (manifest.validate_avoids_aborted prims) fun _ hvalid => ?_
  iterate 3 refine avoids_bind (avoids_throwIf (by decide)) fun _ _ => ?_
  refine avoids_bind (parseQueryPlan_avoids_aborted prims _) fun plan _ => ?_
  refine avoids_bind (avoids_throwIf (by decide)) fun _ _ => ?_
  refine avoids_bind (avoids_forM fun entry _ => avoids_throwIf (by decide)) fun _ _ => ?_
  refine avoids_bind (avoids_throwIf (by decide)) fun _ hlength => ?_
  refine avoids_bind ?_ fun vectors hdecoded => ?_
  · exact avoids_bind (avoids_throwIf (by decide)) fun _ _ => avoids_pure _
  refine avoids_bind (avoids_forM fun entry hentry => ?_) fun _ _ => avoids_pure _
  rw [throwIf_eq_ok, not_or, not_not, not_not] at hlength
  have hrow : entry.2 < manifest.queries.length := by
    rw [← length_chunks_of_validate prims hvalid hlength.1 hdecoded]
    exact List.snd_lt_of_mem_zipIdx hentry
  refine avoids_bind ?_ fun _ _ => avoids_bind ?_ fun _ _ => avoids_throwIf (by decide)
  · exact avoids_bind (avoids_throwIf (by decide)) fun _ _ => avoids_throwIf (by decide)
  · rw [List.getElem?_eq_getElem hrow]
    exact avoids_ok _

theorem SealedQueryVectorSet.vectorForUniqueRequest_avoids_aborted
    (sealedSet : SealedQueryVectorSet) (rawQuery composedQuery mode : String) (topN : U64)
    (relations : List String) :
    Avoids .aborted (sealedSet.vectorForUniqueRequest prims rawQuery composedQuery mode topN
      relations) := by
  unfold SealedQueryVectorSet.vectorForUniqueRequest
  refine avoids_bind (avoids_foldlM fun found entry _ => ?_) fun found _ => ?_
  · split
    · exact avoids_bind (avoids_throwIf (by decide)) fun _ _ => avoids_pure _
    · exact avoids_pure _
  · refine avoids_bind (avoids_orThrow (by decide)) fun ordinal _ => ?_
    unfold SealedQueryVectorSet.vectorAt
    iterate 2 refine avoids_bind (avoids_orThrow (by decide)) fun _ _ => ?_
    exact avoids_orThrow (by decide)

end LivefireRag.Pipeline
