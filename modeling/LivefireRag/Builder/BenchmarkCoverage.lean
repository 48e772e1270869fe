import LivefireRag.Builder.BenchmarkPolicy

/-!
# The built policy is admissible

`benchmarkSelectionPolicy_admissible` follows a policy from the candidates to the
selection. The policy that the builder makes of candidates a selection can read is one
that the selection accepts, with quotas that add up to the three targets, stay within the
cells and grow; the selection succeeds unless two candidates have the same key.

Every relation with fewer cells than turns is served in every cell. Of 1,488 relations
each has at least six turns, one for each cell it may have, so the longest text is
selected. `unlisted_maximum` shows that with 1,666 relations it need not be: each target
begins with the first relation again, and the last relation has four turns.
-/

namespace LivefireRag.Builder

open Fallible Machine Ranking Seen Pipeline

/-! ### Targets -/

section Targets

variable {cells : List Cell} {allocated : List U64} (documentCount : U64)

theorem cells_targetQuota (hlength : allocated.length = cells.length) :
    (targetQuota cells documentCount allocated).quotas.map (·.cell) = cells := by
  rw [targetQuota, List.map_map]
  exact List.map_fst_zip hlength.ge

theorem targetQuota_accepted (hlength : allocated.length = cells.length)
    (htotal : ∑ index ∈ Finset.range cells.length, counts allocated index = documentCount) :
    TargetAccepted cells (targetQuota cells documentCount allocated) where
  cells := cells_targetQuota documentCount hlength
  total := by
    have hdocuments : (targetQuota cells documentCount allocated).quotas.map
        (fun quota => (quota.documents : ℕ)) = allocated.map fun value : U64 => (value : ℕ) := by
      conv_rhs => rw [← List.map_snd_zip hlength.le, List.map_map]
      rw [targetQuota, List.map_map]
      rfl
    rw [hdocuments, ← sum_counts, hlength, htotal]
    rfl

/-- The quota of a cell is what it holds. -/
theorem exists_quota (hlength : allocated.length = cells.length) {cell : Cell} {index : ℕ}
    (hcell : cells[index]? = some cell) :
    ∃ quota ∈ (targetQuota cells documentCount allocated).quotas, quota.cell = cell ∧
      (quota.documents : ℕ) = counts allocated index := by
  obtain ⟨hlt, -⟩ := List.getElem?_eq_some_iff.mp hcell
  have hget : allocated[index]? = some (allocated.getD index 0) := by
    rw [List.getD_eq_getElem?_getD, List.getElem?_eq_getElem (hlength ▸ hlt)]
    rfl
  have hzip : (cells.zip allocated)[index]? = some (cell, allocated.getD index 0) := by
    rw [List.getElem?_zip_eq_some]
    exact ⟨hcell, hget⟩
  exact ⟨_, List.mem_map_of_mem (List.mem_of_getElem? hzip), rfl, rfl⟩

theorem count_targetQuota (hnodup : cells.Nodup)
    (haccepted : TargetAccepted cells (targetQuota cells documentCount allocated))
    (hlength : allocated.length = cells.length) {cell : Cell} {index : ℕ}
    (hcell : cells[index]? = some cell) :
    (targetQuota cells documentCount allocated).count cell = counts allocated index := by
  obtain ⟨quota, hquota, rfl, hdocuments⟩ := exists_quota documentCount hlength hcell
  rw [haccepted.count_cell hnodup hquota, hdocuments]

end Targets

section Dealt

variable {dataset : DatasetIdentity} {strata : List BenchmarkLengthStratum}
  {capacities small middle large : List U64}

theorem fill_sound {goal : ℕ} {s s' : RoundRobin.State ℕ}
    (h : RoundRobin.Fill (counts capacities) (relationCells strata.length) goal
      (List.range dataset.includedRelations.length) s s')
    (hs : RoundRobin.Sound (counts capacities)
      (Finset.range (expectedCells dataset strata).length) s) :
    RoundRobin.Sound (counts capacities) (Finset.range (expectedCells dataset strata).length) s' :=
  h.preserves (fun r hr _ _ hvisit => hvisit.sound (by
    rw [length_expectedCells]
    exact relationCells_subset (List.mem_range.mp hr))) hs

/-- What the cells hold at the three targets. -/
theorem Dealt.sound (h : Dealt dataset strata capacities small middle large) :
    RoundRobin.Sound (counts capacities) (Finset.range (expectedCells dataset strata).length)
        (fillState small 512) ∧
      RoundRobin.Sound (counts capacities) (Finset.range (expectedCells dataset strata).length)
        (fillState middle 2000) ∧
      RoundRobin.Sound (counts capacities) (Finset.range (expectedCells dataset strata).length)
        (fillState large 10000) := by
  have hempty : RoundRobin.Sound (counts capacities)
      (Finset.range (expectedCells dataset strata).length) ⟨fun _ => 0, 0⟩ :=
    ⟨fun _ _ => Nat.zero_le _, Finset.sum_const_zero⟩
  have hsmall := fill_sound h.first hempty
  have hmiddle := fill_sound h.second hsmall
  exact ⟨hsmall, hmiddle, fill_sound h.third hmiddle⟩

/-- A policy of dealt targets is one that validation accepts. -/
theorem Dealt.accepted (h : Dealt dataset strata capacities small middle large)
    {policy : BenchmarkSelectionPolicy} (hstrata : StrataAccepted strata)
    (hnodup : (expectedCells dataset strata).Nodup) (hpolicy : policy.lengthStrata = strata)
    (htargets : policy.targets = [targetQuota (expectedCells dataset strata) 512 small,
      targetQuota (expectedCells dataset strata) 2000 middle,
      targetQuota (expectedCells dataset strata) 10000 large]) :
    PolicyAccepted dataset policy := by
  obtain ⟨hsmall, hmiddle, hlarge⟩ := h.sound
  have hlength := length_expectedCells dataset strata
  have hsmallOk := targetQuota_accepted 512 (h.length_small.trans hlength.symm) hsmall.total
  have hmiddleOk := targetQuota_accepted 2000 (h.length_middle.trans hlength.symm) hmiddle.total
  have hlargeOk := targetQuota_accepted 10000 (h.length_large.trans hlength.symm) hlarge.total
  subst hpolicy
  refine ⟨hstrata, hnodup, ?_, ?_, ?_⟩
  · rw [htargets]
    rfl
  · rw [htargets]
    exact List.forall_mem_cons.mpr ⟨hsmallOk, List.forall_mem_cons.mpr ⟨hmiddleOk,
      List.forall_mem_cons.mpr ⟨hlargeOk, fun _ hmem => absurd hmem List.not_mem_nil⟩⟩⟩
  · rw [htargets]
    -- no cell gives back what it holds
    have hfirst : ∀ cell ∈ expectedCells dataset policy.lengthStrata,
        (targetQuota (expectedCells dataset policy.lengthStrata) 512 small).count cell ≤
          (targetQuota (expectedCells dataset policy.lengthStrata) 2000 middle).count cell := by
      intro cell hcell
      obtain ⟨index, hindex⟩ := List.mem_iff_getElem?.mp hcell
      rw [count_targetQuota _ hnodup hsmallOk (h.length_small.trans hlength.symm) hindex,
        count_targetQuota _ hnodup hmiddleOk (h.length_middle.trans hlength.symm) hindex]
      exact h.second.filled_le index
    have hsecond : ∀ cell ∈ expectedCells dataset policy.lengthStrata,
        (targetQuota (expectedCells dataset policy.lengthStrata) 2000 middle).count cell ≤
          (targetQuota (expectedCells dataset policy.lengthStrata) 10000 large).count cell := by
      intro cell hcell
      obtain ⟨index, hindex⟩ := List.mem_iff_getElem?.mp hcell
      rw [count_targetQuota _ hnodup hmiddleOk (h.length_middle.trans hlength.symm) hindex,
        count_targetQuota _ hnodup hlargeOk (h.length_large.trans hlength.symm) hindex]
      exact h.third.filled_le index
    refine List.pairwise_cons.mpr ⟨fun _ _ _ _ => Nat.zero_le _, List.pairwise_cons.mpr
      ⟨List.forall_mem_cons.mpr ⟨hfirst, List.forall_mem_singleton.mpr fun cell hcell =>
        (hfirst cell hcell).trans (hsecond cell hcell)⟩, List.pairwise_pair.mpr hsecond⟩⟩

/-- A target asks no cell for more than its capacity. -/
theorem documents_le_capacity {documentCount : U64} {allocated : List U64}
    (hsound : RoundRobin.Sound (counts capacities)
      (Finset.range (expectedCells dataset strata).length) (fillState allocated documentCount))
    {quota : BenchmarkStratumQuota}
    (hquota : quota ∈ (targetQuota (expectedCells dataset strata) documentCount allocated).quotas) :
    ∃ index, (expectedCells dataset strata)[index]? = some quota.cell ∧
      (quota.documents : ℕ) ≤ counts capacities index := by
  obtain ⟨entry, hentry, rfl⟩ := List.mem_map.mp hquota
  obtain ⟨index, hindex⟩ := List.mem_iff_getElem?.mp hentry
  rw [List.getElem?_zip_eq_some] at hindex
  obtain ⟨hlt, hget⟩ := List.getElem?_eq_some_iff.mp hindex.1
  refine ⟨index, hindex.1, ?_⟩
  have hfits := hsound.fits index (Finset.mem_range.mpr hlt)
  have hcount : counts allocated index = entry.2 := by
    rw [counts, List.getD_eq_getElem?_getD, hindex.2]
    rfl
  exact hcount ▸ hfits

/-- A cell with candidates, of a relation with enough turns, is served. -/
theorem Dealt.served (h : Dealt dataset strata capacities small middle large)
    (hrelations : dataset.includedRelations.length ≤ 1488) (hstrata : strata.length ≤ 6)
    {index : ℕ} (hindex : index < dataset.includedRelations.length * strata.length)
    (hroom : 0 < counts capacities index) : 0 < counts large index := by
  obtain ⟨r, hr, hmem⟩ := exists_relationCells hindex
  have hdisjoint : ∀ other, other ≠ r →
      Disjoint (relationCells strata.length other) (relationCells strata.length r) :=
    fun other hne => disjoint_relationCells _ hne
  have hrange := List.mem_range.mpr hr
  have hempty : RoundRobin.Served (relationCells strata.length r) index 0
      (⟨fun _ => 0, 0⟩ : RoundRobin.State ℕ) :=
    fun _ => ⟨Nat.zero_le _, fun _ _ => Nat.zero_le 1⟩
  have hsmall := h.first.served hdisjoint hrange hmem hroom hempty
  have hmiddle := h.second.served hdisjoint hrange hmem hroom hsmall
  have hlarge := h.third.served hdisjoint hrange hmem hroom hmiddle
  rw [List.length_range] at hlarge
  -- whole passes: as many for each target as the relations go into what it adds
  have hpos : 0 < dataset.includedRelations.length := Nat.zero_lt_of_lt hr
  have hturns : 6 ≤ 0 + (512 - 0) / dataset.includedRelations.length +
      (2000 - 512) / dataset.includedRelations.length +
      (10000 - 2000) / dataset.includedRelations.length := by
    have hmiddleTurns : 1 ≤ (2000 - 512) / dataset.includedRelations.length :=
      (Nat.le_div_iff_mul_le hpos).mpr (by omega)
    have hlargeTurns : 5 ≤ (10000 - 2000) / dataset.includedRelations.length :=
      (Nat.le_div_iff_mul_le hpos).mpr (by omega)
    exact Nat.add_le_add (Nat.add_le_add (Nat.zero_le _) hmiddleTurns) hlargeTurns
  have hcard : (relationCells strata.length r).card = strata.length := by
    rw [relationCells, Nat.card_Ico, Nat.add_sub_cancel_left]
  exact (hlarge.mono (hcard.le.trans (hstrata.trans hturns))).pos hmem

end Dealt

/-! ### From the candidates to the selection -/

/-- Whether a candidate lies in a cell. -/
def liesIn (strata : List BenchmarkLengthStratum) (relation lengthStratum : String)
    (candidate : BenchmarkSelectionCandidate) : Bool :=
  candidate.primaryRelation = relation ∧
    (strata.find? (·.contains candidate.semanticTextUtf8Bytes)).map (·.id) = some lengthStratum

/-- Quotas of the three sizes that no cell lacks the candidates for, each target at least
the one before it in every cell. -/
structure QuotasAdmissible (strata : List BenchmarkLengthStratum)
    (candidates : List BenchmarkSelectionCandidate) (targets : List BenchmarkTargetQuota) :
    Prop where
  sizes : targets.map (fun target => (target.documentCount : ℕ)) = [512, 2000, 10000]
  total : ∀ target ∈ targets,
    (target.quotas.map fun quota => (quota.documents : ℕ)).sum = target.documentCount
  capacity : ∀ target ∈ targets, ∀ quota ∈ target.quotas,
    (quota.documents : ℕ) ≤ candidates.countP (liesIn strata quota.relation quota.lengthStratum)
  nested : targets.Pairwise fun target target' =>
    ∀ quota ∈ target.quotas, ∀ quota' ∈ target'.quotas, quota.cell = quota'.cell →
      quota.documents ≤ quota'.documents

/-- The row is that of a candidate whose text is the longest. -/
def HasGreatestLength (candidates : List BenchmarkSelectionCandidate)
    (row : BenchmarkSelectionRow) : Prop :=
  ∃ candidate ∈ candidates, row.documentId = candidate.documentId ∧
    row.semanticTextUtf8Bytes = candidate.semanticTextUtf8Bytes ∧
    ∀ other ∈ candidates, other.semanticTextUtf8Bytes ≤ candidate.semanticTextUtf8Bytes

section Admissible

variable {dataset : DatasetIdentity} {strata : List BenchmarkLengthStratum}
  {candidates : List BenchmarkSelectionCandidate}

/-- The candidates that stand at a cell's position are those that lie in it. -/
theorem countP_candidateCell (hnodup : (expectedCells dataset strata).Nodup)
    (hcells : ∀ candidate ∈ candidates, ∃ stratum index,
      InCell dataset strata candidate stratum index) {relation lengthStratum : String} {index : ℕ}
    (hcell : (expectedCells dataset strata)[index]? = some (toLex (relation, lengthStratum))) :
    candidates.countP (fun candidate => candidateCell dataset strata candidate = .ok index) =
      candidates.countP (liesIn strata relation lengthStratum) := by
  refine List.countP_congr fun candidate hcandidate => ?_
  obtain ⟨stratum, position, hin⟩ := hcells candidate hcandidate
  rw [liesIn, hin.find, hin.cell]
  simp only [Option.map_some, decide_eq_true_eq, Except.ok.injEq, Option.some.injEq]
  constructor
  · rintro rfl
    have heq := Option.some.inj (hin.get.symm.trans hcell)
    exact Prod.mk.inj (toLex.injective heq)
  · rintro ⟨rfl, rfl⟩
    exact (List.getElem?_inj (hin.lt.trans_eq (length_expectedCells _ _).symm) hnodup).mp
      (hin.get.trans hcell.symm)

theorem Dealt.quotasAdmissible {capacities small middle large : List U64}
    (h : Dealt dataset strata capacities small middle large)
    (hnodup : (expectedCells dataset strata).Nodup)
    (hcells : ∀ candidate ∈ candidates, ∃ stratum index,
      InCell dataset strata candidate stratum index)
    (hcapacity : ∀ index, counts capacities index = candidates.countP fun candidate =>
      candidateCell dataset strata candidate = .ok index)
    {policy : BenchmarkSelectionPolicy} (hpolicy : policy.lengthStrata = strata)
    (htargets : policy.targets = [targetQuota (expectedCells dataset strata) 512 small,
      targetQuota (expectedCells dataset strata) 2000 middle,
      targetQuota (expectedCells dataset strata) 10000 large])
    (haccepted : PolicyAccepted dataset policy) :
    QuotasAdmissible strata candidates policy.targets := by
  subst hpolicy
  refine ⟨?_, fun target htarget => (haccepted.targets target htarget).total,
    fun target htarget quota hquota => ?_, ?_⟩
  · rw [htargets]
    rfl
  · obtain ⟨hsmall, hmiddle, hlarge⟩ := h.sound
    have hwithin : ∃ index, (expectedCells dataset policy.lengthStrata)[index]? =
        some quota.cell ∧ (quota.documents : ℕ) ≤ counts capacities index := by
      rw [htargets] at htarget
      simp only [List.mem_cons, List.not_mem_nil, or_false] at htarget
      rcases htarget with rfl | rfl | rfl
      · exact documents_le_capacity hsmall hquota
      · exact documents_le_capacity hmiddle hquota
      · exact documents_le_capacity hlarge hquota
    obtain ⟨index, hindex, hle⟩ := hwithin
    rw [hcapacity, countP_candidateCell hnodup hcells hindex] at hle
    exact hle
  · have hgrowing := (List.pairwise_cons.mp haccepted.growing).2
    refine (List.pairwise_map.mp hgrowing).imp_of_mem ?_
    intro target target' htarget htarget' hle quota hquota quota' hquota' hsame
    have hcell : quota.cell ∈ expectedCells dataset policy.lengthStrata := by
      rw [← (haccepted.targets target htarget).cells]
      exact List.mem_map_of_mem hquota
    have hcounts := hle quota.cell hcell
    rw [(haccepted.targets target htarget).count_cell hnodup hquota, hsame,
      (haccepted.targets target' htarget').count_cell hnodup hquota'] at hcounts
    exact Fin.le_def.mpr hcounts

end Admissible

theorem contains_of_find? {strata : List BenchmarkLengthStratum} {bytes : U64}
    {stratum : BenchmarkLengthStratum} (h : strata.find? (·.contains bytes) = some stratum) :
    stratum.contains bytes = true := by
  simpa using List.find?_some h

section Selection

variable {prims : Primitives} {dataset : DatasetIdentity} {projectionPolicy : ComponentRef}
  {policy : BenchmarkSelectionPolicy} {candidates : List BenchmarkSelectionCandidate}

/-- Quotas within the capacities are ones that every cell can meet. -/
theorem QuotasAdmissible.cellsFit
    (h : QuotasAdmissible policy.lengthStrata candidates policy.targets)
    (hpolicy : PolicyAccepted dataset policy)
    (hcells : ∀ candidate ∈ candidates, ∃ stratum index,
      InCell dataset policy.lengthStrata candidate stratum index) :
    CellsFit prims dataset projectionPolicy policy candidates := by
  intro target htarget quota hquota
  have hcell : quota.cell ∈ expectedCells dataset policy.lengthStrata := by
    rw [← (hpolicy.targets target htarget).cells]
    exact List.mem_map_of_mem hquota
  obtain ⟨index, hindex⟩ := List.mem_iff_getElem?.mp hcell
  rw [length_cellRows prims hpolicy.cells_nodup hcells hindex,
    countP_candidateCell hpolicy.cells_nodup hcells hindex]
  exact h.capacity target htarget quota hquota

/-- A cell that the last target asks for is one of a selected candidate. -/
theorem exists_selected_row {rows : List BenchmarkSelectionRow}
    (hselected : Selected prims dataset projectionPolicy policy candidates rows)
    {target : BenchmarkTargetQuota} (htarget : target ∈ policy.targets)
    {quota : BenchmarkStratumQuota} (hquota : quota ∈ target.quotas)
    (hpos : 0 < (quota.documents : ℕ)) :
    ∃ row ∈ rows, ∃ candidate ∈ candidates, ∃ stratum,
      policy.lengthStrata.find? (·.contains candidate.semanticTextUtf8Bytes) = some stratum ∧
      candidateRow prims dataset projectionPolicy policy candidate stratum = row.unranked ∧
      row.cell = quota.cell := by
  have hcount := hselected.quota target htarget quota hquota
  obtain ⟨row, hrow⟩ := List.exists_mem_of_length_pos (hcount ▸ hpos)
  obtain ⟨hmem, hcell⟩ := List.mem_filter.mp hrow
  have hunranked : row.unranked ∈
      cellRows prims dataset projectionPolicy policy candidates quota.cell := by
    refine List.mem_of_mem_take (i := quota.documents) ?_
    rw [← hselected.first target htarget quota hquota]
    exact List.mem_map_of_mem hrow
  obtain ⟨candidate, hcandidate, stratum, hfind, heq⟩ :=
    mem_selectionRows.mp (mem_cellRows.mp hunranked).1
  exact ⟨row, List.mem_of_mem_take hmem, candidate, hcandidate, stratum, hfind, heq,
    of_decide_eq_true hcell⟩

end Selection

/-- **The built policy is admissible.** From valid candidates of distinct ids, ten thousand
or more, the builder makes strata and quotas that pass every check of a policy. The
selection then succeeds exactly when the candidates have distinct keys, and with at most
1,488 relations it holds a longest text. -/
theorem benchmarkSelectionPolicy_admissible (prims : Primitives) (dataset : DatasetIdentity)
    (projectionPolicy : ComponentRef) (selectionSeed : String)
    (candidates : List BenchmarkSelectionCandidate) (hdataset : dataset.validate = .ok ())
    (hprojection : projectionPolicy.validate = .ok ()) (hseed : selectionSeed ≠ "")
    (hmany : 10000 ≤ candidates.length) (hsafe : candidates.length ≤ maxSafeJsonInteger)
    (hvalid : ∀ candidate ∈ candidates, validateCandidate dataset candidate = .ok ())
    (hids : (candidates.map (·.documentId)).Nodup) :
    ∃ strata policy sealedPolicy, benchmarkLengthStrata candidates = .ok strata ∧
      validateLengthStrata strata = .ok () ∧
      benchmarkSelectionPolicy dataset strata candidates selectionSeed = .ok policy ∧
      policy.seal prims dataset = .ok sealedPolicy ∧
      sealedPolicy.validate prims dataset = .ok () ∧
      QuotasAdmissible strata candidates sealedPolicy.targets ∧
      ((∃ selection, selectBenchmarkDocuments prims dataset projectionPolicy sealedPolicy
          candidates = .ok selection) ↔
        ((selectionRows prims dataset projectionPolicy sealedPolicy candidates).map
          (·.selectionKeySha256)).Nodup) ∧
      (dataset.includedRelations.length ≤ 1488 → ∀ count digest rows,
        selectBenchmarkDocuments prims dataset projectionPolicy sealedPolicy candidates =
          .ok (count, digest, rows) → ∃ row ∈ rows, HasGreatestLength candidates row) := by
  have hfields : ∀ candidate ∈ candidates, candidate.semanticTextUtf8Bytes ≠ 0 ∧
      (candidate.semanticTextUtf8Bytes : ℕ) ≤ maxSafeJsonInteger ∧
      candidate.primaryRelation ∈ dataset.includedRelations := by
    intro candidate hcandidate
    have hok := hvalid candidate hcandidate
    simp only [validateCandidate, bind_eq_ok, exists_unit, requireText_eq_ok,
      requireSafeU64_eq_ok, throwIf_eq_ok, not_or, not_not] at hok
    exact ⟨hok.2.2.2.1, hok.2.2.1, hok.2.2.2.2⟩
  obtain ⟨strata, last, hstrata, hstrataOk, hfive, hothers, ⟨longest, hlongest, hlength⟩, hmax⟩ :=
    benchmarkLengthStrata_spec hmany fun candidate hcandidate =>
      ⟨(hfields candidate hcandidate).1, (hfields candidate hcandidate).2.1⟩
  have haccepted := validateLengthStrata_accepted hstrataOk
  have hnodup := nodup_expectedCells (nodup_includedRelations hdataset) haccepted.ids_nodup
  have hcells : ∀ candidate ∈ candidates, ∃ stratum index,
      InCell dataset (strata ++ [last]) candidate stratum index :=
    fun candidate hcandidate => exists_inCell haccepted (hfields candidate hcandidate).2.2
  obtain ⟨policy, capacities, small, middle, large, hbuilt, hschema, halgorithm, hseedEq,
    hlengthStrata, htargets, hcapacity, hdealt⟩ := benchmarkSelectionPolicy_spec selectionSeed
      hcells hmany (hsafe.trans_lt (by decide))
  have hsealedOk : ∃ sealedPolicy, policy.seal prims dataset = .ok sealedPolicy ∧
      sealedPolicy.validate prims dataset = .ok () ∧
      sealedPolicy.lengthStrata = strata ++ [last] ∧ sealedPolicy.targets = policy.targets := by
    have hpolicyOk : BenchmarkSelectionPolicy.validate prims { policy with
        componentSha256 := canonicalDigest prims (.mkObject policy.body) } dataset = .ok () :=
      BenchmarkSelectionPolicy.validate_of_accepted prims hdataset hschema halgorithm
        (hseedEq ▸ hseed) (hlengthStrata ▸ hstrataOk)
        (hdealt.accepted haccepted hnodup hlengthStrata htargets)
        (BenchmarkSelectionPolicy.componentDigest_eq prims _)
    refine ⟨_, ?_, hpolicyOk, hlengthStrata, rfl⟩
    rw [BenchmarkSelectionPolicy.seal, BenchmarkSelectionPolicy.componentDigest_eq, ok_bind]
    show BenchmarkSelectionPolicy.validate prims _ dataset >>= _ = _
    rw [hpolicyOk]
    rfl
  obtain ⟨sealedPolicy, hsealed, hsealedValid, hsealedStrata, hsealedTargets⟩ := hsealedOk
  have hpolicy := BenchmarkSelectionPolicy.validate_accepted prims hsealedValid
  have hquotas := hdealt.quotasAdmissible hnodup hcells hcapacity hsealedStrata
    (hsealedTargets.trans htargets) hpolicy
  refine ⟨strata ++ [last], policy, sealedPolicy, hstrata, hstrataOk, hbuilt, hsealed, hsealedValid,
    hquotas, ?_, ?_⟩
  · constructor
    · rintro ⟨selection, hselect⟩
      exact (select_ok hselect).2.keys_nodup
    · intro hkeys
      have hcellsSealed := hcells
      rw [← hsealedStrata] at hquotas hcellsSealed
      obtain ⟨-, hadmissible⟩ := selectBenchmarkDocuments_spec prims dataset projectionPolicy
        sealedPolicy candidates hsealedValid
      obtain ⟨-, hcases⟩ := hadmissible ⟨hvalid, hids, hkeys⟩
      exact (hcases hprojection hmany hsafe).2.mpr (hquotas.cellsFit hpolicy hcellsSealed)
  · intro hrelations count digest rows hselect
    obtain ⟨hruns, -⟩ := selectBenchmarkDocuments_spec prims dataset projectionPolicy
      sealedPolicy candidates hsealedValid
    obtain ⟨hselected, -⟩ := hruns count digest rows hselect
    -- the longest text lies in the last stratum, and its cell is served
    obtain ⟨stratum, index, hin⟩ := hcells longest hlongest
    obtain rfl : stratum = last := by
      have hcontains := contains_of_find? hin.find
      rcases List.mem_append.mp (List.mem_of_find?_eq_some hin.find) with hmem | hmem
      · rw [hlength, hothers stratum hmem] at hcontains
        cases hcontains
      · exact List.mem_singleton.mp hmem
    have hroom : 0 < counts capacities index := by
      rw [hcapacity]
      exact List.countP_pos_iff.mpr ⟨longest, hlongest, decide_eq_true hin.cell⟩
    have hserved := hdealt.served hrelations
      (by rw [List.length_append, List.length_singleton]; exact Nat.succ_le_succ hfive) hin.lt hroom
    obtain ⟨quota, hquota, hcell, hdocuments⟩ := exists_quota 10000
      (hdealt.length_large.trans (length_expectedCells dataset (strata ++ [stratum])).symm) hin.get
    have htarget : targetQuota (expectedCells dataset (strata ++ [stratum])) 10000 large ∈
        sealedPolicy.targets := by
      rw [hsealedTargets, htargets]
      exact List.mem_of_getElem? (i := 2) rfl
    obtain ⟨row, hrow, candidate, hcandidate, found, hfind, heq, hrowCell⟩ :=
      exists_selected_row hselected htarget hquota (hdocuments ▸ hserved)
    -- so the selected candidate is of the last stratum too
    rw [hsealedStrata] at hfind
    have hid : found.id = stratum.id := by
      have hlex := congrArg (fun cell : Cell => (ofLex cell).2) (hrowCell.trans hcell)
      have hrowStratum := congrArg BenchmarkSelectionRow.lengthStratum heq
      exact hrowStratum.trans hlex
    obtain rfl : found = stratum := List.inj_on_of_nodup_map haccepted.ids_nodup
      (List.mem_of_find?_eq_some hfind) (List.mem_of_find?_eq_some hin.find) hid
    have hcontains := contains_of_find? hfind
    refine ⟨row, hrow, candidate, hcandidate,
      (congrArg BenchmarkSelectionRow.documentId heq).symm,
      (congrArg BenchmarkSelectionRow.semanticTextUtf8Bytes heq).symm, fun other hother => ?_⟩
    exact (hmax other hother).trans (of_decide_eq_true hcontains).1

/-- The stand-in for the hash tells candidates of different lengths apart. -/
theorem nodup_keys_sampleCandidates (policy : BenchmarkSelectionPolicy) :
    ((selectionRows samplePrimitives sampleDataset sampleProjection policy sampleCandidates).map
      (·.selectionKeySha256)).Nodup := by
  have hlengths : sampleCandidates.Pairwise fun candidate other =>
      hexDigest candidate.semanticTextUtf8Bytes ≠ hexDigest other.semanticTextUtf8Bytes := by
    rw [sampleCandidates, List.pairwise_map]
    refine (List.nodup_finRange 10000).imp fun {m n} hne heq => hne ?_
    have hbytes := hexDigest_inj (show (m : ℕ) + 1 < 65536 by omega)
      (show (n : ℕ) + 1 < 65536 by omega) heq
    exact Fin.ext (Nat.succ_injective hbytes)
  refine List.pairwise_map.mpr (List.Pairwise.filterMap _ ?_ hlengths)
  intro candidate other hne row hrow row' hrow'
  obtain ⟨stratum, -, rfl⟩ := Option.map_eq_some_iff.mp hrow
  obtain ⟨stratum', -, rfl⟩ := Option.map_eq_some_iff.mp hrow'
  simp only [candidateRow, selectionKey_samplePrimitives]
  exact hne

theorem sampleCandidates_admissible : ∃ sealedPolicy count digest rows,
    sealedPolicy.validate samplePrimitives sampleDataset = .ok () ∧
    selectBenchmarkDocuments samplePrimitives sampleDataset sampleProjection sealedPolicy
      sampleCandidates = .ok (count, digest, rows) ∧
    ∃ row ∈ rows, HasGreatestLength sampleCandidates row := by
  obtain ⟨strata, policy, sealedPolicy, -, -, -, -, hvalid, -, hselect, hlongest⟩ :=
    benchmarkSelectionPolicy_admissible samplePrimitives sampleDataset sampleProjection "seed"
      sampleCandidates rfl rfl (by decide) length_sampleCandidates.ge
      (length_sampleCandidates ▸ by decide) admissible_sampleCandidates.valid
      admissible_sampleCandidates.ids_nodup
  obtain ⟨⟨count, digest, rows⟩, hrows⟩ := hselect.mpr (nodup_keys_sampleCandidates sealedPolicy)
  exact ⟨sealedPolicy, count, digest, rows, hvalid, hrows,
    hlongest (by decide) count digest rows hrows⟩

/-! ### Candidates without ids, and too many relations

The first of these candidates has the empty id. -/

def unnamedCandidate (n : Fin 10000) : BenchmarkSelectionCandidate :=
  { sampleCandidate n with documentId := String.ofList (List.replicate n 'd') }

def unnamedCandidates : List BenchmarkSelectionCandidate := (List.finRange 10000).map unnamedCandidate

def crowdedRelation (n : ℕ) : String := String.ofList (List.replicate (n + 1) 'r')

def crowdedRelations (count : ℕ) : List String := (List.range count).map crowdedRelation

/-- A dataset of so many relations. -/
def crowdedDataset (count : ℕ) : DatasetIdentity :=
  { sampleDataset with includedRelations := crowdedRelations count }

/-- A hundred candidates of each relation, with texts of a hundred lengths; and one more, of
the last relation, with a longer text. -/
def crowdedCandidate (n : Fin 166601) : BenchmarkSelectionCandidate where
  documentId := String.ofList (List.replicate (n + 1) 'd')
  documentSha256 := hexDigest 1
  semanticTextSha256 := hexDigest 2
  semanticTextUtf8Bytes := ⟨(n : ℕ) / 1666 + 1, by omega⟩
  primaryRelation := crowdedRelation (1665 - (n : ℕ) % 1666)

def crowdedCandidates : List BenchmarkSelectionCandidate := (List.finRange 166601).map crowdedCandidate

theorem toList_crowdedRelation (n : ℕ) :
    (crowdedRelation n).toList = List.replicate (n + 1) 'r' := String.toList_ofList

theorem crowdedRelation_lt {m n : ℕ} (h : m < n) : crowdedRelation m < crowdedRelation n := by
  rw [String.lt_iff_toList_lt, toList_crowdedRelation, toList_crowdedRelation]
  have hreplicate : ∀ k l : ℕ, k < l → List.replicate k 'r' < List.replicate l 'r' := by
    intro k
    induction k with
    | zero =>
      intro l hl
      obtain ⟨l, rfl⟩ := Nat.exists_eq_succ_of_ne_zero hl.ne'
      exact List.nil_lt_cons _ _
    | succ k ih =>
      intro l hl
      obtain ⟨l, rfl⟩ := Nat.exists_eq_succ_of_ne_zero (Nat.ne_zero_of_lt hl)
      exact List.cons_lt_cons_self.mpr (ih l (Nat.lt_of_succ_lt_succ hl))
  exact hreplicate _ _ (Nat.succ_lt_succ h)

theorem crowdedRelation_injective : Function.Injective crowdedRelation := by
  intro m n h
  have hlength := congrArg (fun s : String => s.toList.length) h
  simpa [toList_crowdedRelation] using hlength

theorem pairwise_crowdedRelations (count : ℕ) : (crowdedRelations count).Pairwise (· < ·) :=
  List.pairwise_map.mpr (List.pairwise_lt_range.imp crowdedRelation_lt)

/-- Relations in ascending order are a scope of their own. -/
theorem validateRelationScope_of_pairwise {relations : List String}
    (hsorted : relations.Pairwise (· < ·)) (hne : ∀ relation ∈ relations, relation ≠ "") :
    ∃ all, validateRelationScope [] relations = .ok all := by
  have hunique : requireSortedUnique relations = .ok () := by
    rw [requireSortedUnique, throwIf_eq_ok, not_or, not_not]
    refine ⟨?_, List.isChain_iff_pairwise.mpr hsorted⟩
    rintro ⟨relation, hmem, hempty⟩
    exact hne relation hmem hempty
  rw [validateRelationScope, hunique, ok_bind]
  obtain ⟨all, hrun, -⟩ := @foldlM_total _ _ _ (fun (all : List String) relation => do
      throwIf (relation ∈ all) (PipelineError.invalid "relation scopes overlap")
      return relation :: all) (fun pre all => all = pre.reverse) relations [] rfl (by
      rintro pre relation post _ hsplit rfl
      refine ⟨relation :: pre.reverse, ?_, by rw [List.reverse_append]; rfl⟩
      have hnew : relation ∉ pre.reverse := by
        rw [hsplit] at hsorted
        intro hmem
        exact lt_irrefl _ ((List.pairwise_append.mp hsorted).2.2 relation
          (List.mem_reverse.mp hmem) relation List.mem_cons_self)
      rw [throwIf_bind_of_not hnew]
      rfl)
  exact ⟨all, hrun⟩

theorem validate_crowdedDataset (count : ℕ) : (crowdedDataset count).validate = .ok () := by
  obtain ⟨all, hall⟩ := validateRelationScope_of_pairwise (pairwise_crowdedRelations count) (by
    intro relation hrelation
    obtain ⟨n, -, rfl⟩ := List.mem_map.mp hrelation
    intro hempty
    have hchars := congrArg String.toList hempty
    rw [toList_crowdedRelation] at hchars
    cases hchars)
  have hscopes : [crowdedRelations count, [], []].foldlM validateRelationScope [] = .ok all := by
    rw [List.foldlM_cons, hall]
    rfl
  show (do
    let _ ← [crowdedRelations count, [], []].foldlM validateRelationScope []
    return () : Pipeline.Result Unit) = _
  rw [hscopes]
  rfl

theorem includedRelations_crowdedDataset (count : ℕ) :
    (crowdedDataset count).includedRelations = crowdedRelations count := rfl

theorem length_crowdedRelations (count : ℕ) : (crowdedRelations count).length = count := by
  rw [crowdedRelations, List.length_map, List.length_range]

theorem idxOf?_crowdedRelation {count r : ℕ} (hr : r < count) :
    (crowdedRelations count).idxOf? (crowdedRelation r) = some r := by
  have hget : ∀ j (hj : j < (crowdedRelations count).length),
      (crowdedRelations count)[j] = crowdedRelation j := by
    intro j hj
    simp only [crowdedRelations, List.getElem_map, List.getElem_range]
  refine List.idxOf?_eq_some_iff.mpr ⟨(length_crowdedRelations count).symm ▸ hr, hget r _, fun j hj heq => ?_⟩
  rw [hget] at heq
  exact hj.ne (crowdedRelation_injective heq)

/-! ### The strata of the crowded candidates -/

def boundedStratum (minimum upper : U64) : BenchmarkLengthStratum :=
  ⟨s!"bytes_{(minimum : ℕ)}_to_{(upper : ℕ)}", minimum, some upper⟩

def crowdedStrata : List BenchmarkLengthStratum :=
  [boundedStratum 0 51, boundedStratum 52 91, boundedStratum 92 96, boundedStratum 97 100,
    ⟨s!"bytes_{((101 : U64) : ℕ)}_and_up", 101, none⟩]

theorem pushStratum_eq {strata : List BenchmarkLengthStratum} {minimum upper : U64} (next : U64)
    (hle : minimum ≤ upper) (hnext : (next : ℕ) = upper + 1) :
    pushStratum (strata, minimum) upper = .ok (strata ++ [boundedStratum minimum upper], next) := by
  have hwidth : toWidth 64 (upper + 1 : ℕ) = some next := toWidth_eq_some.mpr hnext
  rw [pushStratum, if_neg (not_lt.mpr hle), hwidth]
  rfl

theorem length_crowdedCandidates : crowdedCandidates.length = 166601 := by
  rw [crowdedCandidates, List.length_map, List.length_finRange]

def crowdedLength (n : Fin 166601) : U64 := ⟨(n : ℕ) / 1666 + 1, by omega⟩

theorem sortedLengths_crowdedCandidates :
    sortedLengths crowdedCandidates = (List.finRange 166601).map crowdedLength := by
  rw [sortedLengths, crowdedCandidates, List.map_map]
  refine sortBy_of_pairwise (List.pairwise_map.mpr ?_)
  refine (List.pairwise_lt_finRange 166601).imp fun {m n} hlt => ?_
  exact Nat.succ_le_succ (Nat.div_le_div_right (Fin.lt_def.mp hlt).le)

theorem getElem?_crowdedLengths {n : ℕ} (hn : n < 166601) :
    ((List.finRange 166601).map crowdedLength)[n]? = some (crowdedLength ⟨n, hn⟩) := by
  rw [List.getElem?_map, List.getElem?_eq_getElem (by rwa [List.length_finRange]),
    List.getElem_finRange]
  rfl

theorem upperBounds_crowdedCandidates :
    upperBounds ((List.finRange 166601).map crowdedLength) 101 = .ok [51, 91, 96, 100] := by
  have hindex : ((List.finRange 166601).map crowdedLength).length - 1 = 166600 := by
    rw [List.length_map, List.length_finRange]
  rw [upperBounds, hindex]
  have hpercentiles : [50, 90, 95, 99].mapM (fun percent =>
      orThrow ((List.finRange 166601).map crowdedLength)[percentileIndex 166600 percent]?
        Error.aborted) = .ok [51, 91, 96, 100] := by
    refine mapM_eq_ok.mpr (.cons ?_ (.cons ?_ (.cons ?_ (.cons ?_ .nil))))
    · rw [show percentileIndex 166600 50 = 83300 by decide, getElem?_crowdedLengths (by decide)]
      exact congrArg Except.ok (by decide)
    · rw [show percentileIndex 166600 90 = 149940 by decide, getElem?_crowdedLengths (by decide)]
      exact congrArg Except.ok (by decide)
    · rw [show percentileIndex 166600 95 = 158270 by decide, getElem?_crowdedLengths (by decide)]
      exact congrArg Except.ok (by decide)
    · rw [show percentileIndex 166600 99 = 164934 by decide, getElem?_crowdedLengths (by decide)]
      exact congrArg Except.ok (by decide)
  rw [hpercentiles]
  exact congrArg Except.ok (by decide)

theorem benchmarkLengthStrata_crowdedCandidates :
    benchmarkLengthStrata crowdedCandidates = .ok crowdedStrata := by
  have hmany : ¬ crowdedCandidates.length < 10000 := by
    rw [length_crowdedCandidates]
    decide
  have hlast : (sortedLengths crowdedCandidates).getLast? = some 101 := by
    rw [sortedLengths_crowdedCandidates, List.getLast?_eq_getElem?, List.length_map,
      List.length_finRange, getElem?_crowdedLengths (by decide)]
    exact congrArg some (by decide)
  have hstrata : [51, 91, 96, 100].foldlM pushStratum ([], 0) =
      .ok ([boundedStratum 0 51, boundedStratum 52 91, boundedStratum 92 96,
        boundedStratum 97 100], 101) := by
    rw [List.foldlM_cons, pushStratum_eq 52 (by decide) (by decide), ok_bind,
      List.foldlM_cons, pushStratum_eq 92 (by decide) (by decide), ok_bind,
      List.foldlM_cons, pushStratum_eq 97 (by decide) (by decide), ok_bind,
      List.foldlM_cons, pushStratum_eq 101 (by decide) (by decide), ok_bind]
    rfl
  have hmaximum : orThrow (sortedLengths crowdedCandidates).getLast?
      (Error.accountingClosure "benchmark has no text lengths") = .ok 101 := by
    rw [hlast]
    rfl
  have hpos : ¬ (101 : U64) = 0 := by decide
  rw [benchmarkLengthStrata, throwIf_bind_of_not hmany]
  dsimp only
  rw [hmaximum, ok_bind, throwIf_bind_of_not hpos, sortedLengths_crowdedCandidates,
    upperBounds_crowdedCandidates, ok_bind, hstrata]
  rfl

/-! ### What the last relation is given -/

theorem contains_boundedStratum (minimum upper length : U64) :
    (boundedStratum minimum upper).contains length = decide (minimum ≤ length ∧ length ≤ upper) :=
  decide_eq_decide.mpr (and_congr_right fun _ => by simp [boundedStratum])

/-- Where a length stands among the strata. -/
theorem findIdx?_crowdedStrata (length : U64) :
    crowdedStrata.findIdx? (·.contains length) =
      [decide (0 ≤ length ∧ length ≤ 51), decide (52 ≤ length ∧ length ≤ 91),
        decide (92 ≤ length ∧ length ≤ 96), decide (97 ≤ length ∧ length ≤ 100),
        decide (101 ≤ length)].findIdx? id := by
  have hopen : (⟨s!"bytes_{((101 : U64) : ℕ)}_and_up", 101, none⟩ : BenchmarkLengthStratum).contains
      length = decide (101 ≤ length) :=
    decide_eq_decide.mpr (by simp)
  have hmap : crowdedStrata.map (·.contains length) =
      [decide (0 ≤ length ∧ length ≤ 51), decide (52 ≤ length ∧ length ≤ 91),
        decide (92 ≤ length ∧ length ≤ 96), decide (97 ≤ length ∧ length ≤ 100),
        decide (101 ≤ length)] := by
    simp only [crowdedStrata, List.map_cons, List.map_nil, contains_boundedStratum, hopen]
  rw [← hmap, List.findIdx?_map]
  rfl

theorem candidateCell_crowdedCandidate {count : ℕ} {n : Fin 166601} (hcount : 1665 - (n : ℕ) % 1666 < count)
    {s : ℕ} (hs : crowdedStrata.findIdx? (·.contains (crowdedLength n)) = some s) :
    candidateCell (crowdedDataset count) crowdedStrata (crowdedCandidate n) =
      .ok ((1665 - (n : ℕ) % 1666) * 5 + s) := by
  have hrelation : (crowdedDataset count).includedRelations.idxOf?
      (crowdedCandidate n).primaryRelation = some (1665 - (n : ℕ) % 1666) := by
    rw [includedRelations_crowdedDataset, crowdedCandidate, idxOf?_crowdedRelation hcount]
  have hstratum : crowdedStrata.findIdx? (·.contains (crowdedCandidate n).semanticTextUtf8Bytes) =
      some s := hs
  rw [candidateCell, hrelation, hstratum]
  rfl

theorem mem_crowdedCandidates (n : Fin 166601) : crowdedCandidate n ∈ crowdedCandidates :=
  List.mem_map_of_mem (List.mem_finRange n)

/-- Every relation has eight candidates in the first stratum. -/
theorem eight_le_countP {r : ℕ} (hr : r < 1666) :
    8 ≤ crowdedCandidates.countP fun candidate =>
      candidateCell (crowdedDataset 1666) crowdedStrata candidate = .ok (r * 5) := by
  let position (k : Fin 8) : Fin 166601 := ⟨1666 * k + (1665 - r), by omega⟩
  have hnodup : ((List.finRange 8).map position).Nodup := by
    refine (List.nodup_finRange 8).map fun k l heq => ?_
    have hval : 1666 * (k : ℕ) + (1665 - r) = 1666 * l + (1665 - r) := congrArg Fin.val heq
    omega
  have hcell : ∀ k : Fin 8, candidateCell (crowdedDataset 1666) crowdedStrata
      (crowdedCandidate (position k)) = .ok (r * 5) := by
    intro k
    have hmod : (position k : ℕ) % 1666 = 1665 - r := by
      show (1666 * (k : ℕ) + (1665 - r)) % 1666 = _
      omega
    have hrelation : 1665 - (position k : ℕ) % 1666 = r := by omega
    have hfirst : crowdedStrata.findIdx? (·.contains (crowdedLength (position k))) = some 0 := by
      have hlength : crowdedLength (position k) ≤ 51 := by
        show (1666 * (k : ℕ) + (1665 - r)) / 1666 + 1 ≤ 51
        omega
      have hin : 0 ≤ crowdedLength (position k) ∧ crowdedLength (position k) ≤ 51 :=
        ⟨Fin.zero_le _, hlength⟩
      rw [findIdx?_crowdedStrata, List.findIdx?_cons, decide_eq_true hin]
      rfl
    rw [candidateCell_crowdedCandidate (by omega) hfirst, hrelation]
    rfl
  have hsub : (List.finRange 8).map position ⊆ (List.finRange 166601).filter fun n =>
      candidateCell (crowdedDataset 1666) crowdedStrata (crowdedCandidate n) = .ok (r * 5) := by
    intro n hn
    obtain ⟨k, -, rfl⟩ := List.mem_map.mp hn
    exact List.mem_filter.mpr ⟨List.mem_finRange _, decide_eq_true (hcell k)⟩
  have hlength := (List.subperm_of_subset hnodup hsub).length_le
  rw [List.length_map, List.length_finRange, ← List.countP_eq_length_filter] at hlength
  rw [crowdedCandidates, List.countP_map]
  simpa only [Function.comp_def] using hlength

/-- Every cell of the last relation has a candidate. -/
theorem countP_last_pos {s : ℕ} (hs : s < 5) :
    0 < crowdedCandidates.countP fun candidate =>
      candidateCell (crowdedDataset 1666) crowdedStrata candidate = .ok (1665 * 5 + s) := by
  have hcell : ∀ (n : Fin 166601) (length : U64), (n : ℕ) % 1666 = 0 → crowdedLength n = length →
      crowdedStrata.findIdx? (·.contains length) = some s →
      0 < crowdedCandidates.countP fun candidate =>
        candidateCell (crowdedDataset 1666) crowdedStrata candidate = .ok (1665 * 5 + s) := by
    rintro n _ hn rfl hstratum
    refine List.countP_pos_iff.mpr ⟨_, mem_crowdedCandidates n, decide_eq_true ?_⟩
    rw [candidateCell_crowdedCandidate (by omega) hstratum, hn]
  obtain rfl | rfl | rfl | rfl | rfl : s = 0 ∨ s = 1 ∨ s = 2 ∨ s = 3 ∨ s = 4 := by omega
  · exact hcell ⟨0, by decide⟩ 1 rfl (by decide)
      ((findIdx?_crowdedStrata _).trans (by decide))
  · exact hcell ⟨84966, by decide⟩ 52 rfl (by decide)
      ((findIdx?_crowdedStrata _).trans (by decide))
  · exact hcell ⟨151606, by decide⟩ 92 rfl (by decide)
      ((findIdx?_crowdedStrata _).trans (by decide))
  · exact hcell ⟨159936, by decide⟩ 97 rfl (by decide)
      ((findIdx?_crowdedStrata _).trans (by decide))
  · exact hcell ⟨166600, by decide⟩ 101 rfl (by decide)
      ((findIdx?_crowdedStrata _).trans (by decide))

/-- The last relation has four turns, one for each of its cells but the last. -/
theorem Dealt.last_cell {capacities small middle large : List U64}
    (h : Dealt (crowdedDataset 1666) crowdedStrata capacities small middle large)
    (hcapacity : ∀ index, counts capacities index = crowdedCandidates.countP fun candidate =>
      candidateCell (crowdedDataset 1666) crowdedStrata candidate = .ok index) :
    counts large 8329 = 0 := by
  have hlength : (crowdedDataset 1666).includedRelations.length = 1665 + 1 := by
    rw [includedRelations_crowdedDataset, length_crowdedRelations]
  have hstrata : crowdedStrata.length = 5 := rfl
  obtain ⟨-, -, -, hfirst, hsecond, hthird⟩ := h
  rw [hlength, List.range_succ, hstrata] at hfirst hsecond hthird
  have hnodup : (List.range 1665 ++ [1665]).Nodup := by
    rw [← List.range_succ]
    exact List.nodup_range
  have hrows : (List.range 1665 ++ [1665]).length = 1666 := by
    rw [List.length_append, List.length_range, List.length_singleton]
  -- every relation has more room than the turns it is given
  have hroom : ∀ r ∈ List.range 1665 ++ [1665],
      8 ≤ ∑ cell ∈ relationCells 5 r, counts capacities cell := by
    intro r hr
    rw [← List.range_succ, List.mem_range] at hr
    have hcell : r * 5 ∈ relationCells 5 r := by
      rw [relationCells, Finset.mem_Ico]
      omega
    have hcount := eight_le_countP hr
    rw [← hcapacity] at hcount
    exact hcount.trans (Finset.single_le_sum (fun _ _ => Nat.zero_le _) hcell)
  have hdisjoint := disjoint_relationCells 5
  have hempty : ∀ r, RoundRobin.rowTotal (relationCells 5) r ⟨fun _ => 0, 0⟩ = 0 :=
    fun r => Finset.sum_const_zero
  obtain ⟨hlast₁, hothers₁⟩ := hfirst.last_row hdisjoint hnodup (Nat.zero_le _) (by
    intro r hr
    have hle := hroom r hr
    rw [hempty, hrows]
    show 0 + (512 - 0) / 1666 < _
    omega)
  rw [hempty, hrows] at hlast₁
  obtain ⟨hlast₂, hothers₂⟩ := hsecond.last_row hdisjoint hnodup (hfirst.total_eq.trans_le (by decide)) (by
    intro r hr
    have hle := hroom r hr
    have hgiven := hothers₁ r hr
    rw [hempty, hrows] at hgiven
    rw [hrows, hfirst.total_eq]
    omega)
  rw [hrows, hfirst.total_eq] at hlast₂ hothers₂
  obtain ⟨hlast₃, -⟩ := hthird.last_row hdisjoint hnodup (hsecond.total_eq.trans_le (by decide)) (by
    intro r hr
    have hle := hroom r hr
    have hgiven₁ := hothers₁ r hr
    have hgiven₂ := hothers₂ r hr
    rw [hempty, hrows] at hgiven₁
    rw [hrows, hsecond.total_eq]
    omega)
  rw [hrows, hsecond.total_eq] at hlast₃
  -- and the last cell waits for the four before it
  have hcells : ∀ cell ∈ relationCells 5 1665, cell ≠ 8329 → cell < 8329 ∧ 0 < counts capacities cell := by
    intro cell hcell hne
    rw [relationCells, Finset.mem_Ico] at hcell
    refine ⟨by omega, ?_⟩
    obtain ⟨s, rfl⟩ := Nat.exists_eq_add_of_le hcell.1
    rw [hcapacity]
    exact countP_last_pos (by omega)
  have hcard : 4 ≤ ((relationCells 5 1665).erase 8329).card := by
    rw [Finset.card_erase_of_mem (by rw [relationCells, Finset.mem_Ico]; omega), relationCells,
      Nat.card_Ico]
  have hlate : ∀ goal : ℕ, ∀ r ∈ List.range 1665 ++ [1665], ∀ t t',
      RoundRobin.Visit (counts capacities) (relationCells 5) goal r t t' →
      RoundRobin.Late (relationCells 5) 1665 8329 4 t →
      RoundRobin.Late (relationCells 5) 1665 8329 4 t' := by
    intro goal r _ t t' hvisit
    refine hvisit.late hcells hcard fun hmem => ?_
    by_contra hne
    have hmem' : 8329 ∈ relationCells 5 1665 := by
      rw [relationCells, Finset.mem_Ico]
      omega
    exact Finset.disjoint_left.mp (hdisjoint hne) hmem hmem'
  have hend : RoundRobin.Late (relationCells 5) 1665 8329 4 (fillState large 10000) :=
    hthird.preserves (hlate _) (hsecond.preserves (hlate _) (hfirst.preserves (hlate _)
      fun _ => rfl))
  refine hend ?_
  omega

/-! ### What the builder does not promise -/

/-- The greatest length is that of one candidate only. -/
theorem eq_of_hasGreatestLength {row : BenchmarkSelectionRow}
    (h : HasGreatestLength crowdedCandidates row) : row.semanticTextUtf8Bytes = 101 := by
  obtain ⟨candidate, hcandidate, -, hlength, hmax⟩ := h
  obtain ⟨n, -, rfl⟩ := List.mem_map.mp hcandidate
  have hle := Fin.le_def.mp (hmax _ (mem_crowdedCandidates ⟨166600, by decide⟩))
  have hlast : ((crowdedCandidate ⟨166600, by decide⟩).semanticTextUtf8Bytes : ℕ) = 101 := by decide
  have hvalue : ((crowdedCandidate n).semanticTextUtf8Bytes : ℕ) = (n : ℕ) / 1666 + 1 := rfl
  rw [hlast, hvalue] at hle
  rw [hlength, Fin.ext_iff, hvalue]
  show (n : ℕ) / 1666 + 1 = 101
  omega

theorem strataAccepted_crowdedStrata : StrataAccepted crowdedStrata := by
  have hlengths : ∀ candidate ∈ crowdedCandidates, candidate.semanticTextUtf8Bytes ≠ 0 ∧
      (candidate.semanticTextUtf8Bytes : ℕ) ≤ maxSafeJsonInteger := by
    intro candidate hcandidate
    obtain ⟨n, -, rfl⟩ := List.mem_map.mp hcandidate
    refine ⟨fun hzero => Nat.succ_ne_zero _ (congrArg Fin.val hzero), ?_⟩
    show (n : ℕ) / 1666 + 1 ≤ 9007199254740991
    omega
  obtain ⟨strata, last, hstrata, hok, -⟩ := benchmarkLengthStrata_spec
    (length_crowdedCandidates ▸ by decide) hlengths
  rw [benchmarkLengthStrata_crowdedCandidates] at hstrata
  rw [← Except.ok.inj hstrata] at hok
  exact validateLengthStrata_accepted hok

/-- Sealing changes the digest only. -/
theorem seal_fields {prims : Primitives} {dataset : DatasetIdentity}
    {policy sealedPolicy : BenchmarkSelectionPolicy}
    (h : policy.seal prims dataset = .ok sealedPolicy) :
    sealedPolicy.lengthStrata = policy.lengthStrata ∧ sealedPolicy.targets = policy.targets := by
  rw [BenchmarkSelectionPolicy.seal, BenchmarkSelectionPolicy.componentDigest_eq, ok_bind] at h
  obtain ⟨_, -, h⟩ := bind_eq_ok.mp h
  cases h
  exact ⟨rfl, rfl⟩

theorem unranked_mem_selectionRows {prims : Primitives} {dataset : DatasetIdentity}
    {projectionPolicy : ComponentRef} {policy : BenchmarkSelectionPolicy}
    {candidates : List BenchmarkSelectionCandidate} {count : U64} {digest : Digest}
    {rows : List BenchmarkSelectionRow}
    (h : selectBenchmarkDocuments prims dataset projectionPolicy policy candidates =
      .ok (count, digest, rows)) {row : BenchmarkSelectionRow} (hrow : row ∈ rows) :
    row.unranked ∈ selectionRows prims dataset projectionPolicy policy candidates := by
  obtain ⟨hprerequisites, hadmissible⟩ := select_ok h
  have hpolicy := BenchmarkSelectionPolicy.validate_accepted prims hprerequisites.policy_ok
  rcases hprerequisites.select_cases hadmissible with
    ⟨-, count', selected, hselect, -, hranked⟩ | ⟨-, error, hselect, -⟩
  · rw [h] at hselect
    obtain rfl : rows = selected := (Prod.mk.inj (Prod.mk.inj (Except.ok.inj hselect)).2).2
    refine mem_stagedRows hpolicy ?_
    rw [← hranked.rows]
    exact List.mem_map_of_mem hrow
  · rw [h] at hselect
    cases hselect

theorem candidateCell_of_length {candidate : BenchmarkSelectionCandidate}
    (hcandidate : candidate ∈ crowdedCandidates)
    (hlength : candidate.semanticTextUtf8Bytes = 101) :
    candidateCell (crowdedDataset 1666) crowdedStrata candidate = .ok 8329 := by
  obtain ⟨n, -, rfl⟩ := List.mem_map.mp hcandidate
  have hvalue : (n : ℕ) / 1666 + 1 = 101 := congrArg Fin.val hlength
  have hn : (n : ℕ) = 166600 := by omega
  have hstratum : crowdedStrata.findIdx? (·.contains (crowdedLength n)) = some 4 := by
    have hsame : crowdedLength n = 101 := hlength
    rw [hsame]
    exact (findIdx?_crowdedStrata _).trans (by decide)
  rw [candidateCell_crowdedCandidate (by omega) hstratum, hn]

/-- No selection with the policy built of the crowded candidates holds the longest text. -/
theorem longest_not_selected (prims : Primitives) (projectionPolicy : ComponentRef)
    (selectionSeed : String) {policy sealedPolicy : BenchmarkSelectionPolicy}
    (hbuilt : benchmarkSelectionPolicy (crowdedDataset 1666) crowdedStrata crowdedCandidates
      selectionSeed = .ok policy)
    (hsealed : policy.seal prims (crowdedDataset 1666) = .ok sealedPolicy) {count : U64}
    {digest : Digest} {rows : List BenchmarkSelectionRow}
    (hselect : selectBenchmarkDocuments prims (crowdedDataset 1666) projectionPolicy sealedPolicy
      crowdedCandidates = .ok (count, digest, rows)) {row : BenchmarkSelectionRow}
    (hrow : row ∈ rows) : ¬ HasGreatestLength crowdedCandidates row := by
  intro hgreatest
  obtain ⟨hprerequisites, hadmissible⟩ := select_ok hselect
  have hpolicy := BenchmarkSelectionPolicy.validate_accepted prims hprerequisites.policy_ok
  have hscope : ∀ candidate ∈ crowdedCandidates,
      candidate.primaryRelation ∈ (crowdedDataset 1666).includedRelations := by
    intro candidate hcandidate
    have hok := hadmissible.valid candidate hcandidate
    simp only [validateCandidate, bind_eq_ok, exists_unit, throwIf_eq_ok, not_or, not_not] at hok
    exact hok.2.2.2.2
  have hmany : 10000 ≤ crowdedCandidates.length := length_crowdedCandidates ▸ by decide
  have hcells : ∀ candidate ∈ crowdedCandidates, ∃ stratum index,
      InCell (crowdedDataset 1666) crowdedStrata candidate stratum index :=
    fun candidate hcandidate => exists_inCell strataAccepted_crowdedStrata (hscope candidate hcandidate)
  obtain ⟨policy', capacities, small, middle, large, hbuilt', -, -, -, hstrata, htargets, hcapacity,
    hdealt⟩ := benchmarkSelectionPolicy_spec selectionSeed hcells hmany
      (length_crowdedCandidates ▸ by decide)
  obtain rfl : policy = policy' := Except.ok.inj (hbuilt.symm.trans hbuilt')
  obtain ⟨hsealedStrata, hsealedTargets⟩ := seal_fields hsealed
  -- the row is of the one candidate with the longest text
  obtain ⟨hruns, -⟩ := selectBenchmarkDocuments_spec prims (crowdedDataset 1666) projectionPolicy
    sealedPolicy crowdedCandidates hprerequisites.policy_ok
  obtain ⟨hselected, -⟩ := hruns count digest rows hselect
  obtain ⟨candidate, hcandidate, stratum, hfind, heq⟩ :=
    mem_selectionRows.mp (unranked_mem_selectionRows hselect hrow)
  have hlength : candidate.semanticTextUtf8Bytes = 101 :=
    (congrArg BenchmarkSelectionRow.semanticTextUtf8Bytes heq).trans
      (eq_of_hasGreatestLength hgreatest)
  have hcell := candidateCell_of_length hcandidate hlength
  obtain ⟨stratum', index, hin⟩ := hcells candidate hcandidate
  obtain rfl : stratum' = stratum := by
    rw [hsealedStrata, hstrata, hin.find] at hfind
    exact Option.some.inj hfind
  obtain rfl : index = 8329 := Except.ok.inj (hin.cell.symm.trans hcell)
  have hrowCell : row.cell = toLex (candidate.primaryRelation, stratum'.id) :=
    (congrArg BenchmarkSelectionRow.cell heq).symm
  -- but the last target asks for none of its cell
  obtain ⟨quota, hquota, hquotaCell, hdocuments⟩ := exists_quota 10000
    (hdealt.length_large.trans (length_expectedCells (crowdedDataset 1666) crowdedStrata).symm)
    hin.get
  have htarget : targetQuota (expectedCells (crowdedDataset 1666) crowdedStrata) 10000 large ∈
      sealedPolicy.targets := by
    rw [hsealedTargets, htargets]
    exact List.mem_cons_of_mem _ (List.mem_cons_of_mem _ List.mem_cons_self)
  have hcount := hselected.quota _ htarget quota hquota
  rw [hdocuments, hdealt.last_cell hcapacity] at hcount
  have htake : row ∈ rows.take 10000 := by
    rw [List.take_of_length_le hselected.length_eq.le]
    exact hrow
  have hfilter : row ∈ (rows.take 10000).filter (·.cell = quota.cell) :=
    List.mem_filter.mpr ⟨htake, decide_eq_true (hrowCell.trans hquotaCell.symm)⟩
  exact List.not_mem_nil (List.length_eq_zero_iff.mp hcount ▸ hfilter)

theorem nodup_documentId_crowdedCandidates :
    (crowdedCandidates.map (·.documentId)).Nodup := by
  rw [crowdedCandidates, List.map_map]
  refine (List.nodup_finRange 166601).map fun m n heq => ?_
  have hlength := congrArg (fun s : String => s.toList.length) heq
  simp only [Function.comp, crowdedCandidate, String.toList_ofList, List.length_replicate,
    Nat.add_right_cancel_iff] at hlength
  exact Fin.ext hlength

theorem validate_crowdedCandidate {candidate : BenchmarkSelectionCandidate}
    (hcandidate : candidate ∈ crowdedCandidates) :
    validateCandidate (crowdedDataset 1666) candidate = .ok () := by
  obtain ⟨n, -, rfl⟩ := List.mem_map.mp hcandidate
  have hne : ∀ (k : ℕ) (c : Char), String.ofList (List.replicate (k + 1) c) ≠ "" := by
    intro k c hempty
    have hchars := congrArg String.toList hempty
    rw [String.toList_ofList] at hchars
    cases hchars
  simp only [validateCandidate, bind_eq_ok, exists_unit, requireText_eq_ok, requireSafeU64_eq_ok,
    throwIf_eq_ok, not_or, not_not]
  refine ⟨hne _ _, hne _ _, ?_, fun hzero => Nat.succ_ne_zero _ (congrArg Fin.val hzero), ?_⟩
  · show (n : ℕ) / 1666 + 1 ≤ 9007199254740991
    omega
  · rw [includedRelations_crowdedDataset, crowdedCandidate]
    exact List.mem_map_of_mem (List.mem_range.mpr (by omega))

/-- Distinct ids may include the empty one, which no selection accepts; and of 1,666
relations the last may keep the longest text from being selected. -/
theorem unlisted_maximum :
    (10000 ≤ unnamedCandidates.length ∧ (unnamedCandidates.map (·.documentId)).Nodup ∧
      (∀ candidate ∈ unnamedCandidates, candidate.semanticTextUtf8Bytes ≠ 0 ∧
        candidate.primaryRelation ∈ sampleDataset.includedRelations) ∧
      ∀ prims projectionPolicy policy selection, selectBenchmarkDocuments prims sampleDataset
        projectionPolicy policy unnamedCandidates ≠ .ok selection) ∧
    ((crowdedDataset 1666).validate = .ok () ∧
      (crowdedDataset 1666).includedRelations.length = 1666 ∧
      10000 ≤ crowdedCandidates.length ∧ (crowdedCandidates.map (·.documentId)).Nodup ∧
      (∀ candidate ∈ crowdedCandidates,
        validateCandidate (crowdedDataset 1666) candidate = .ok ()) ∧
      benchmarkLengthStrata crowdedCandidates = .ok crowdedStrata ∧
      ∀ prims projectionPolicy selectionSeed policy sealedPolicy count digest rows,
        benchmarkSelectionPolicy (crowdedDataset 1666) crowdedStrata crowdedCandidates
          selectionSeed = .ok policy →
        policy.seal prims (crowdedDataset 1666) = .ok sealedPolicy →
        selectBenchmarkDocuments prims (crowdedDataset 1666) projectionPolicy sealedPolicy
          crowdedCandidates = .ok (count, digest, rows) →
        ∀ row ∈ rows, ¬ HasGreatestLength crowdedCandidates row) := by
  refine ⟨⟨?_, ?_, ?_, ?_⟩, validate_crowdedDataset _, ?_, length_crowdedCandidates ▸ by decide,
    nodup_documentId_crowdedCandidates, fun _ => validate_crowdedCandidate,
    benchmarkLengthStrata_crowdedCandidates,
    fun _ _ _ _ _ _ _ _ hbuilt hsealed hselect _ => longest_not_selected _ _ _ hbuilt hsealed hselect⟩
  · rw [unnamedCandidates, List.length_map, List.length_finRange]
  · rw [unnamedCandidates, List.map_map]
    refine (List.nodup_finRange 10000).map fun m n heq => ?_
    have hlength := congrArg (fun s : String => s.toList.length) heq
    simp only [Function.comp, unnamedCandidate, String.toList_ofList, List.length_replicate]
      at hlength
    exact Fin.ext hlength
  · intro candidate hcandidate
    obtain ⟨n, -, rfl⟩ := List.mem_map.mp hcandidate
    exact ⟨fun hzero => Nat.succ_ne_zero _ (congrArg Fin.val hzero), List.mem_singleton_self _⟩
  · intro prims projectionPolicy policy selection hselect
    -- the first candidate fails its own check
    have hfirst : unnamedCandidate 0 ∈ unnamedCandidates :=
      List.mem_map_of_mem (List.mem_finRange 0)
    have hok := (select_ok hselect).2.valid _ hfirst
    simp only [validateCandidate, bind_eq_ok, exists_unit, requireText_eq_ok] at hok
    exact hok.1 rfl
  · rw [includedRelations_crowdedDataset, length_crowdedRelations]

end LivefireRag.Builder
