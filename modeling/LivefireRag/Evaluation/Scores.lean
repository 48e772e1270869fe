import LivefireRag.Evaluation.Judged
import LivefireRag.Lib.Discount

/-!
# Scores of a ranking

The metrics as functions of the ranked documents. The gains a ranking counts are those of
the first document of each evidence group, and the groups it counts are among those of the
ideal ranking, each with its grade: so no ranking gains more than the ideal one
(`ndcgOf_le_one`), and only the ideal gains gain as much (`ndcgOf_eq_one_iff`).
-/

namespace LivefireRag.Evaluation

open Fallible

/-! ### Counted grades -/

/-- The grades a ranking counts after the groups seen: of the documents of a group that of
the first one, for the others nothing. -/
def countedGrades (documents : Dict String Judgment) : Finset String → List String → List ℕ
  | _, [] => []
  | seen, id :: ids =>
    (if groupOf documents id ∈ seen then 0 else gradeOf documents id) ::
      countedGrades documents (insert (groupOf documents id) seen) ids

/-- The evidence groups of documents. -/
def groupsOf (documents : Dict String Judgment) (ids : List String) : Finset String :=
  (ids.map (groupOf documents)).toFinset

/-- The groups of the relevant documents. -/
def retrievedGroups (documents : Dict String Judgment) (ids : List String) : Finset String :=
  groupsOf documents (ids.filter fun id => relevantGrade ≤ gradeOf documents id)

variable {documents : Dict String Judgment} {ids : List String} {id : String}
variable {seen : Finset String}

theorem groupsOf_cons : groupsOf documents (id :: ids) =
    insert (groupOf documents id) (groupsOf documents ids) := List.toFinset_cons

theorem mem_groupsOf {groupId : String} :
    groupId ∈ groupsOf documents ids ↔ ∃ id ∈ ids, groupOf documents id = groupId := by
  rw [groupsOf, List.mem_toFinset, List.mem_map]

theorem countedGrades_append (xs ys : List String) : countedGrades documents seen (xs ++ ys) =
    countedGrades documents seen xs ++ countedGrades documents (groupsOf documents xs ∪ seen) ys := by
  induction xs generalizing seen with
  | nil =>
    rw [List.nil_append, countedGrades, List.nil_append]
    congr 1
    exact (Finset.empty_union seen).symm
  | cons x xs ih =>
    rw [List.cons_append, countedGrades, ih, countedGrades, List.cons_append, groupsOf_cons,
      Finset.union_insert, Finset.insert_union]

theorem countedGrades_take (k : ℕ) : countedGrades documents seen (ids.take k) =
    (countedGrades documents seen ids).take k := by
  induction ids generalizing seen k with
  | nil => rw [List.take_nil, countedGrades, List.take_nil]
  | cons id ids ih =>
    cases k with
    | zero => rfl
    | succ k => rw [List.take_succ_cons, countedGrades, ih, countedGrades, List.take_succ_cons]

theorem length_countedGrades : (countedGrades documents seen ids).length = ids.length := by
  induction ids generalizing seen with
  | nil => rfl
  | cons id ids ih => rw [countedGrades, List.length_cons, ih, List.length_cons]

/-- What two neighbours of different groups count does not depend on which is first. -/
theorem countedGrades_swap {a b : String} (h : groupOf documents a ≠ groupOf documents b)
    (ids : List String) : ∃ x y rest, countedGrades documents seen (a :: b :: ids) = x :: y :: rest ∧
      countedGrades documents seen (b :: a :: ids) = y :: x :: rest := by
  have hb : groupOf documents b ∈ insert (groupOf documents a) seen ↔ groupOf documents b ∈ seen := by
    rw [Finset.mem_insert, or_iff_right h.symm]
  have ha : groupOf documents a ∈ insert (groupOf documents b) seen ↔ groupOf documents a ∈ seen := by
    rw [Finset.mem_insert, or_iff_right h]
  refine ⟨_, _, _, rfl, ?_⟩
  simp only [countedGrades, ha, hb, Finset.insert_comm (groupOf documents a)]

/-- The scan of the first documents counts their grades. -/
theorem grades_foldl_scanTop (scan : TopScan) : (ids.foldl (scanTop documents) scan).grades =
    scan.grades ++ countedGrades documents scan.seenGroups ids := by
  induction ids generalizing scan with
  | nil => rw [countedGrades, List.append_nil]; rfl
  | cons id ids ih =>
    rw [List.foldl_cons, ih, countedGrades]
    unfold scanTop
    dsimp only
    split
    · next hseen => rw [List.append_assoc, Finset.insert_eq_of_mem hseen]; rfl
    · rw [List.append_assoc]; rfl

/-! ### Judged documents -/

/-- Documents that all have a judgment. -/
def Judged (documents : Dict String Judgment) (ids : List String) : Prop :=
  ∀ id ∈ ids, ∃ judgment, documents.get? id = some judgment

theorem gradeOf_eq {judgment : Judgment} (h : documents.get? id = some judgment) :
    gradeOf documents id = judgment.grade := by
  rw [gradeOf, h]
  rfl

theorem groupOf_eq {judgment : Judgment} (h : documents.get? id = some judgment) :
    groupOf documents id = judgment.groupId := by
  rw [groupOf, h]
  rfl

theorem exists_judgment_of_pos (h : 0 < gradeOf documents id) :
    ∃ judgment, documents.get? id = some judgment := by
  cases hget : documents.get? id with
  | none =>
    rw [gradeOf, hget] at h
    exact absurd h (lt_irrefl 0)
  | some judgment => exact ⟨judgment, rfl⟩

/-- Judged documents of one group have one grade. -/
theorem Consistent.gradeOf_eq (h : Consistent documents) {id' : String} {a b : Judgment}
    (ha : documents.get? id = some a) (hb : documents.get? id' = some b)
    (hgroup : groupOf documents id = groupOf documents id') :
    gradeOf documents id = gradeOf documents id' := by
  rw [groupOf_eq ha, groupOf_eq hb] at hgroup
  rw [Evaluation.gradeOf_eq ha, Evaluation.gradeOf_eq hb]
  exact h _ (Dict.get?_eq_some_iff.mp ha) _ (Dict.get?_eq_some_iff.mp hb) hgroup

/-- The scan retrieves the groups of the relevant documents: a document whose group has been
seen has the grade of the one seen. -/
theorem retrieved_foldl_scanTop (hconsistent : Consistent documents) (hjudged : Judged documents ids) :
    (ids.foldl (scanTop documents) ⟨∅, [], ∅⟩).seenGroups = groupsOf documents ids ∧
    (ids.foldl (scanTop documents) ⟨∅, [], ∅⟩).retrievedGroups = retrievedGroups documents ids := by
  induction ids using List.reverseRecOn with
  | nil => exact ⟨rfl, rfl⟩
  | append_singleton ids id ih =>
    obtain ⟨hseen, hretrieved⟩ := ih fun x hx => hjudged x (List.mem_append_left _ hx)
    obtain ⟨judgment, hjudgment⟩ := hjudged id (List.mem_append_right _ (List.mem_singleton_self id))
    have hgroups : groupsOf documents (ids ++ [id]) =
        insert (groupOf documents id) (groupsOf documents ids) := by
      rw [groupsOf, List.map_append, List.toFinset_append, Finset.union_comm]
      rfl
    have hrelevant : retrievedGroups documents (ids ++ [id]) =
        if relevantGrade ≤ gradeOf documents id then
          insert (groupOf documents id) (retrievedGroups documents ids)
        else retrievedGroups documents ids := by
      rw [retrievedGroups, List.filter_append, groupsOf, List.map_append, List.toFinset_append,
        Finset.union_comm]
      split
      · next hgrade => rw [List.filter_cons_of_pos (by simpa using hgrade)]; rfl
      · next hgrade =>
        rw [List.filter_cons_of_neg (by simpa using hgrade)]
        exact Finset.empty_union _
    rw [List.foldl_append, List.foldl_cons, List.foldl_nil, scanTop, hgroups, hrelevant, hseen,
      hretrieved]
    split
    · next hmem =>
      refine ⟨(Finset.insert_eq_of_mem hmem).symm, ?_⟩
      split
      · next hgrade =>
        obtain ⟨id', hid', hgroup⟩ := mem_groupsOf.mp hmem
        obtain ⟨judgment', hjudgment'⟩ := hjudged id' (List.mem_append_left _ hid')
        have hsame := hconsistent.gradeOf_eq hjudgment' hjudgment hgroup
        refine (Finset.insert_eq_of_mem (mem_groupsOf.mpr ⟨id', ?_, hgroup⟩)).symm
        exact List.mem_filter.mpr ⟨hid', decide_eq_true (hsame ▸ hgrade)⟩
      · rfl
    · exact ⟨rfl, rfl⟩

/-! ### The ideal ranking -/

/-- Where there is a relevant group there is a relevant document. -/
theorem exists_relevant (h : (relevantGroups documents).size ≠ 0) :
    ∃ entry ∈ documents.entries, relevantGrade ≤ entry.2.grade := by
  by_contra hnone
  refine h ?_
  have hnil : relevantDocuments documents = [] :=
    List.filter_eq_nil_iff.mpr fun entry hentry hgrade =>
      hnone ⟨entry, hentry, of_decide_eq_true hgrade⟩
  rw [relevantGroups, hnil]
  rfl

theorem get?_gradedGroups (hconsistent : Consistent documents) {judgment : Judgment}
    (h : documents.get? id = some judgment) (hpos : 0 < judgment.grade) :
    (gradedGroups documents).get? judgment.groupId = some judgment.grade := by
  have hentry := Dict.get?_eq_some_iff.mp h
  refine get?_groupMaxima_of_unique (fun w hw => ?_) (List.mem_map.mpr
    ⟨(id, judgment), List.mem_filter.mpr ⟨hentry, decide_eq_true hpos⟩, rfl⟩)
  obtain ⟨entry, hmem, heq⟩ := List.mem_map.mp hw
  obtain ⟨hgroup, rfl⟩ := Prod.mk.inj heq
  exact hconsistent _ (List.mem_filter.mp hmem).1 _ hentry hgroup

/-- The groups a ranking counts with a grade above 0, each with its grade. -/
theorem exists_countedPairs (hconsistent : Consistent documents) (seen : Finset String)
    (ids : List String) : ∃ pairs : List (String × ℕ), (pairs.map Prod.fst).Nodup ∧
      (∀ pair ∈ pairs, pair.1 ∉ seen ∧ pair ∈ (gradedGroups documents).entries) ∧
      pairs.map Prod.snd = (countedGrades documents seen ids).filter (0 < ·) := by
  induction ids generalizing seen with
  | nil => exact ⟨[], List.nodup_nil, nofun, rfl⟩
  | cons id ids ih =>
    obtain ⟨pairs, hnodup, hpairs, hgrades⟩ := ih (insert (groupOf documents id) seen)
    have hseen : ∀ pair ∈ pairs, pair.1 ∉ seen ∧ pair ∈ (gradedGroups documents).entries :=
      fun pair hpair => ⟨fun hmem => (hpairs pair hpair).1 (Finset.mem_insert_of_mem hmem),
        (hpairs pair hpair).2⟩
    rw [countedGrades]
    by_cases hcounted : groupOf documents id ∉ seen ∧ 0 < gradeOf documents id
    · obtain ⟨hnew, hpos⟩ := hcounted
      obtain ⟨judgment, hjudgment⟩ := exists_judgment_of_pos hpos
      refine ⟨(groupOf documents id, gradeOf documents id) :: pairs, ?_, ?_, ?_⟩
      · refine List.nodup_cons.mpr ⟨fun hmem => ?_, hnodup⟩
        obtain ⟨pair, hpair, heq⟩ := List.mem_map.mp hmem
        exact (hpairs pair hpair).1 (heq ▸ Finset.mem_insert_self _ _)
      · refine List.forall_mem_cons.mpr ⟨⟨hnew, ?_⟩, hseen⟩
        rw [gradeOf_eq hjudgment] at hpos ⊢
        rw [groupOf_eq hjudgment]
        exact Dict.get?_eq_some_iff.mp (get?_gradedGroups hconsistent hjudgment hpos)
      · rw [if_neg hnew, List.filter_cons_of_pos (by simpa using hpos), List.map_cons, hgrades]
    · refine ⟨pairs, hnodup, hseen, ?_⟩
      rw [List.filter_cons_of_neg, hgrades]
      intro hpos
      split at hpos
      · cases hpos
      · next hnew => exact hcounted ⟨hnew, of_decide_eq_true hpos⟩

theorem subperm_map {α β : Type} (f : α → β) {xs ys : List α} (h : xs.Subperm ys) :
    (xs.map f).Subperm (ys.map f) := by
  obtain ⟨zs, hperm, hsub⟩ := h
  exact ⟨zs.map f, hperm.map f, hsub.map f⟩

theorem countedGrades_subperm (hconsistent : Consistent documents) (ids : List String) :
    ((countedGrades documents ∅ ids).filter (0 < ·)).Subperm (idealGrades documents) := by
  obtain ⟨pairs, hnodup, hpairs, hgrades⟩ := exists_countedPairs hconsistent ∅ ids
  have hsub : pairs.Subperm (gradedGroups documents).entries :=
    List.subperm_of_subset (List.Nodup.of_map _ hnodup) fun pair hpair => (hpairs pair hpair).2
  rw [← hgrades]
  exact (subperm_map Prod.snd hsub).trans (List.mergeSort_perm _ _).symm.subperm

theorem idealGrades_pairwise (documents : Dict String Judgment) :
    (idealGrades documents).Pairwise (· ≥ ·) := by
  have hsorted := @List.pairwise_mergeSort _ (fun a b : ℕ => decide (b ≤ a))
    (fun a b c hab hbc => by
      simp only [decide_eq_true_eq] at *
      omega)
    (fun a b => by
      simp only [Bool.or_eq_true, decide_eq_true_eq]
      omega) (gradedGroups documents).values
  exact hsorted.imp fun h => of_decide_eq_true h

/-! ### Gains -/

section Gains

variable {𝕜 : Type} [Field 𝕜] [LinearOrder 𝕜] [IsStrictOrderedRing 𝕜]

/-- The gains a ranking counts. -/
def countedGains (𝕜 : Type) [Field 𝕜] (documents : Dict String Judgment) (ids : List String) :
    List 𝕜 :=
  (countedGrades documents ∅ ids).map gain

/-- The gains of an ideal ranking. -/
def idealGains (𝕜 : Type) [Field 𝕜] (documents : Dict String Judgment) : List 𝕜 :=
  (idealGrades documents).map gain

theorem gain_pos_iff {grade : ℕ} : (0 : 𝕜) < gain grade ↔ 0 < grade := by
  rw [gain, sub_pos]
  constructor
  · intro h
    rw [Nat.pos_iff_ne_zero]
    rintro rfl
    rw [pow_zero] at h
    exact lt_irrefl _ h
  · exact fun h => one_lt_pow₀ one_lt_two h.ne'

theorem gain_nonneg (grade : ℕ) : (0 : 𝕜) ≤ gain grade := by
  rw [gain, sub_nonneg]
  exact one_le_pow₀ one_le_two

theorem gain_mono {a b : ℕ} (h : a ≤ b) : (gain a : 𝕜) ≤ gain b :=
  sub_le_sub_right (pow_le_pow_right₀ one_le_two h) 1

theorem nonneg_of_mem_map_gain {grades : List ℕ} {x : 𝕜} (h : x ∈ grades.map gain) : 0 ≤ x := by
  obtain ⟨grade, -, rfl⟩ := List.mem_map.mp h
  exact gain_nonneg grade

theorem countedGains_subperm (hconsistent : Consistent documents) (ids : List String) :
    ((countedGains 𝕜 documents ids).filter (0 < ·)).Subperm (idealGains 𝕜 documents) := by
  have hfilter : (countedGains 𝕜 documents ids).filter (0 < ·) =
      ((countedGrades documents ∅ ids).filter (0 < ·)).map gain := by
    rw [countedGains, List.filter_map]
    congr 1
    refine List.filter_congr fun grade _ => ?_
    simp only [Function.comp_apply, gain_pos_iff]
  rw [hfilter]
  exact subperm_map gain (countedGrades_subperm hconsistent ids)

theorem idealGains_pairwise (documents : Dict String Judgment) :
    (idealGains 𝕜 documents).Pairwise (· ≥ ·) :=
  List.pairwise_map.mpr ((idealGrades_pairwise documents).imp fun h => gain_mono h)

omit [LinearOrder 𝕜] [IsStrictOrderedRing 𝕜] in
theorem dcg_eq_weigh (discount : ℕ → 𝕜) (grades : List ℕ) (k : ℕ) :
    dcg discount grades k =
      Discount.weigh (fun i => discount (i + 1)) ((grades.map gain).take k) := by
  have hsum : ∀ (grades : List ℕ) (start : ℕ),
      ((grades.zipIdx start).map fun entry => gain entry.1 * discount entry.2).sum =
        Discount.weigh (fun i => discount (i + start)) (grades.map gain) := by
    intro grades
    induction grades with
    | nil => exact fun _ => rfl
    | cons grade grades ih =>
      intro start
      rw [List.zipIdx_cons, List.map_cons, List.sum_cons, ih, List.map_cons, Discount.weigh]
      congr 2
      · rw [Nat.zero_add]
      · funext i
        congr 1
        omega
  rw [dcg, hsum, List.map_take]

/-! ### The metrics of a list of documents -/

def ndcgOf (discount : ℕ → 𝕜) (k : ℕ) (documents : Dict String Judgment) (ids : List String) : 𝕜 :=
  dcg discount (countedGrades documents ∅ ids) k / dcg discount (idealGrades documents) k

def recallOf (𝕜 : Type) [Field 𝕜] (k : ℕ) (documents : Dict String Judgment) (ids : List String) :
    𝕜 :=
  ((retrievedGroups documents (ids.take k)).card : 𝕜) / (relevantGroups documents).size

/-- The position of the first relevant document. -/
def firstRelevant (documents : Dict String Judgment) (ids : List String) : Option ℕ :=
  ids.findIdx? fun id => relevantGrade ≤ gradeOf documents id

def reciprocalRank (𝕜 : Type) [Field 𝕜] : Option ℕ → 𝕜
  | some i => 1 / (i + 1 : ℕ)
  | none => 0

theorem reciprocalRank_mem_Icc (i : Option ℕ) :
    0 ≤ reciprocalRank 𝕜 i ∧ reciprocalRank 𝕜 i ≤ 1 := by
  cases i with
  | none => exact ⟨le_rfl, zero_le_one⟩
  | some i =>
    refine ⟨div_nonneg zero_le_one (Nat.cast_nonneg _), div_le_one_of_le₀ ?_ (Nat.cast_nonneg _)⟩
    exact Nat.one_le_cast.mpr (Nat.succ_pos i)

def mrrOf (𝕜 : Type) [Field 𝕜] (k : ℕ) (documents : Dict String Judgment) (ids : List String) : 𝕜 :=
  reciprocalRank 𝕜 (firstRelevant documents (ids.take k))

/-- Rank discounts that are positive and fall strictly, from rank 1 on. -/
structure RankDiscounts (discount : ℕ → 𝕜) : Prop where
  pos : ∀ i, 0 < discount (i + 1)
  falls : StrictAnti fun i => discount (i + 1)

section Bounds

variable {discount : ℕ → 𝕜} {k : ℕ} (hdiscount : RankDiscounts discount)
include hdiscount

theorem dcg_nonneg (grades : List ℕ) (k : ℕ) : 0 ≤ dcg discount grades k := by
  rw [dcg_eq_weigh]
  exact Discount.weigh_nonneg (fun i => (hdiscount.pos i).le) fun x hx =>
    nonneg_of_mem_map_gain (List.mem_of_mem_take hx)

/-- With a relevant group the ideal ranking gains something. -/
theorem idealDcg_pos (hk : 1 ≤ k) (hconsistent : Consistent documents)
    (hrelevant : (relevantGroups documents).size ≠ 0) :
    0 < dcg discount (idealGrades documents) k := by
  obtain ⟨entry, hentry, hgrade⟩ := exists_relevant hrelevant
  have hget := Dict.get?_eq_some_iff.mpr hentry
  have hpos : 0 < entry.2.grade := (by decide : 0 < relevantGrade).trans_le hgrade
  have hmem : entry.2.grade ∈ idealGrades documents := by
    rw [idealGrades, List.mem_mergeSort]
    exact List.mem_map_of_mem (f := Prod.snd)
      (Dict.get?_eq_some_iff.mp (get?_gradedGroups hconsistent hget hpos))
  have hsorted := idealGrades_pairwise documents
  obtain ⟨k, rfl⟩ : ∃ n, k = n + 1 := ⟨k - 1, by omega⟩
  rw [dcg_eq_weigh]
  cases hideal : idealGrades documents with
  | nil => exact absurd (hideal ▸ hmem) List.not_mem_nil
  | cons first rest =>
    rw [hideal] at hmem hsorted
    have hfirst : 0 < first := by
      rcases List.mem_cons.mp hmem with heq | hrest
      · exact heq ▸ hpos
      · exact hpos.trans_le ((List.pairwise_cons.mp hsorted).1 _ hrest)
    rw [List.map_cons, List.take_succ_cons, Discount.weigh]
    refine add_pos_of_pos_of_nonneg (mul_pos (gain_pos_iff.mpr hfirst) (hdiscount.pos 0)) ?_
    exact Discount.weigh_nonneg (fun i => (hdiscount.pos (i + 1)).le) fun x hx =>
      nonneg_of_mem_map_gain (List.mem_of_mem_take hx)

/-- **No ranking gains more than the ideal one.** -/
theorem ndcgOf_le_one (hconsistent : Consistent documents)
    (hpos : 0 < dcg discount (idealGrades documents) k) (ids : List String) :
    ndcgOf discount k documents ids ≤ 1 := by
  rw [ndcgOf, div_le_one hpos, dcg_eq_weigh, dcg_eq_weigh]
  exact Discount.weigh_le_of_subperm (fun x hx => nonneg_of_mem_map_gain hx)
    (fun y hy => nonneg_of_mem_map_gain hy) (idealGains_pairwise documents)
    (countedGains_subperm hconsistent ids) (fun i => (hdiscount.pos i).le) hdiscount.falls.antitone k

/-- **Only the ideal gains, place by place, gain as much.** -/
theorem ndcgOf_eq_one_iff (hconsistent : Consistent documents)
    (hpos : 0 < dcg discount (idealGrades documents) k) (ids : List String) :
    ndcgOf discount k documents ids = 1 ↔ ∀ i < k,
      (countedGains 𝕜 documents ids).getD i 0 = (idealGains 𝕜 documents).getD i 0 := by
  rw [ndcgOf, div_eq_one_iff_eq hpos.ne', dcg_eq_weigh, dcg_eq_weigh]
  exact Discount.weigh_eq_iff_of_subperm (fun x hx => nonneg_of_mem_map_gain hx)
    (fun y hy => nonneg_of_mem_map_gain hy) (idealGains_pairwise documents)
    (countedGains_subperm hconsistent ids) hdiscount.pos hdiscount.falls k

/-- **One more document of a group ranked above does not raise nDCG.** -/
theorem ndcgOf_insert_le {pre post : List String} {e : String} (he : e ∈ pre)
    (hgroup : groupOf documents e = groupOf documents id) :
    ndcgOf discount k documents (pre ++ id :: post) ≤ ndcgOf discount k documents (pre ++ post) := by
  have hmem : groupOf documents id ∈ groupsOf documents pre ∪ ∅ := by
    rw [Finset.union_empty]
    exact mem_groupsOf.mpr ⟨e, he, hgroup⟩
  refine div_le_div_of_nonneg_right ?_ (dcg_nonneg hdiscount _ k)
  rw [countedGrades_append, countedGrades_append, countedGrades, if_pos hmem,
    Finset.insert_eq_of_mem hmem, dcg_eq_weigh, dcg_eq_weigh, List.map_append, List.map_append,
    List.map_cons, gain, pow_zero, sub_self, Discount.weigh_take, Discount.weigh_take]
  exact Discount.weigh_insert_le
    (Discount.cut_antitone (fun i => (hdiscount.pos i).le) hdiscount.falls.antitone k)
    fun y hy => nonneg_of_mem_map_gain hy

/-- **Of two neighbours of different groups, the one that counts more is best put first.** -/
theorem ndcgOf_swap_le {pre post : List String} {a b : String}
    (hgroups : groupOf documents a ≠ groupOf documents b)
    (hgain : (countedGains 𝕜 documents (pre ++ a :: b :: post)).getD pre.length 0 ≤
      (countedGains 𝕜 documents (pre ++ a :: b :: post)).getD (pre.length + 1) 0) :
    ndcgOf discount k documents (pre ++ a :: b :: post) ≤
      ndcgOf discount k documents (pre ++ b :: a :: post) := by
  obtain ⟨x, y, rest, hbefore, hafter⟩ := countedGrades_swap hgroups post
  have hlength : pre.length = ((countedGrades documents ∅ pre).map (@gain 𝕜 _)).length := by
    rw [List.length_map, length_countedGrades]
  refine div_le_div_of_nonneg_right ?_ (dcg_nonneg hdiscount _ k)
  rw [countedGains, countedGrades_append, hbefore, List.map_append, List.map_cons, List.map_cons,
    hlength, List.getD_eq_getElem?_getD, List.getD_eq_getElem?_getD,
    List.getElem?_append_right le_rfl, List.getElem?_append_right (Nat.le_add_right _ 1), Nat.sub_self,
    Nat.add_sub_cancel_left] at hgain
  rw [countedGrades_append, countedGrades_append, hbefore, hafter, dcg_eq_weigh, dcg_eq_weigh,
    List.map_append, List.map_append, Discount.weigh_take, Discount.weigh_take]
  exact Discount.weigh_swap_le
    (Discount.cut_antitone (fun i => (hdiscount.pos i).le) hdiscount.falls.antitone k) hgain

end Bounds

/-! ### Recall and reciprocal rank -/

/-- A document of the first ones, when another is inserted. -/
theorem mem_take_insert {α : Type} {pre post : List α} {x y : α} {k : ℕ}
    (h : y ∈ (pre ++ x :: post).take k) :
    (y = x ∧ pre.length < k) ∨ y ∈ (pre ++ post).take k := by
  rw [List.take_append, List.mem_append] at h
  rcases h with h | h
  · rw [List.take_append]
    exact .inr (List.mem_append_left _ h)
  · obtain ⟨n, hn⟩ | hzero : (∃ n, k - pre.length = n + 1) ∨ k - pre.length = 0 := by
      cases k - pre.length with
      | zero => exact .inr rfl
      | succ n => exact .inl ⟨n, rfl⟩
    · rw [hn, List.take_succ_cons, List.mem_cons] at h
      rcases h with rfl | h
      · exact .inl ⟨rfl, by omega⟩
      · refine .inr ?_
        rw [List.take_append, List.mem_append, hn]
        exact .inr (List.take_subset_take_left post (Nat.le_succ n) h)
    · rw [hzero] at h
      cases h

theorem mem_relevantGroups (hconsistent : Consistent documents) {judgment : Judgment}
    (h : documents.get? id = some judgment) :
    ((relevantGroups documents).get? (groupOf documents id)).isSome ↔
      relevantGrade ≤ gradeOf documents id := by
  rw [Option.isSome_iff_exists, ← Dict.mem_keys_iff, relevantGroups, mem_keys_groupMaxima,
    groupOf_eq h, gradeOf_eq h, List.map_map, List.mem_map]
  have hentry := Dict.get?_eq_some_iff.mp h
  constructor
  · rintro ⟨entry, hmem, hgroup⟩
    obtain ⟨hother, hgrade⟩ := List.mem_filter.mp hmem
    rw [← hconsistent _ hother _ hentry hgroup]
    exact of_decide_eq_true hgrade
  · exact fun hgrade => ⟨_, List.mem_filter.mpr ⟨hentry, decide_eq_true hgrade⟩, rfl⟩

/-- The relevant groups retrieved are relevant groups. -/
theorem card_retrievedGroups_le (hconsistent : Consistent documents)
    (hjudged : Judged documents ids) :
    (retrievedGroups documents ids).card ≤ (relevantGroups documents).size := by
  have hsub : retrievedGroups documents ids ⊆ (relevantGroups documents).keys.toFinset := by
    intro groupId hgroup
    obtain ⟨id, hid, rfl⟩ := mem_groupsOf.mp hgroup
    obtain ⟨hmem, hgrade⟩ := List.mem_filter.mp hid
    obtain ⟨judgment, hjudgment⟩ := hjudged id hmem
    rw [List.mem_toFinset, Dict.mem_keys_iff, ← Option.isSome_iff_exists,
      mem_relevantGroups hconsistent hjudgment]
    exact of_decide_eq_true hgrade
  have hkeys : (relevantGroups documents).keys.toFinset.card = (relevantGroups documents).size := by
    have hnodup : (relevantGroups documents).keys.Nodup := (relevantGroups documents).nodup
    rw [List.toFinset_card_of_nodup hnodup, Dict.keys, List.length_map]
    rfl
  exact (Finset.card_le_card hsub).trans_eq hkeys

theorem recallOf_le_one {k : ℕ} (hconsistent : Consistent documents)
    (hjudged : Judged documents (ids.take k)) : recallOf 𝕜 k documents ids ≤ 1 := by
  refine div_le_one_of_le₀ ?_ (Nat.cast_nonneg _)
  exact Nat.cast_le.mpr (card_retrievedGroups_le hconsistent hjudged)

section Insert

variable {pre post : List String} {e : String} {k : ℕ} (hconsistent : Consistent documents)
  (he : e ∈ pre) (hgroup : groupOf documents e = groupOf documents id)
  (hjudged : Judged documents ((pre ++ post).take k))
  (hjudged' : Judged documents ((pre ++ id :: post).take k))
include hconsistent he hgroup hjudged hjudged'

omit hjudged in
/-- A document that is inserted among the first ones is as relevant as the one of its group
above it. -/
theorem gradeOf_inserted (hroom : pre.length < k) :
    gradeOf documents e = gradeOf documents id := by
  have hmem : ∀ x ∈ pre ++ [id], x ∈ (pre ++ id :: post).take k := by
    intro x hx
    have htake : (pre ++ id :: post).take k = pre ++ [id] ++ post.take (k - (pre.length + 1)) := by
      rw [← List.singleton_append, ← List.append_assoc, List.take_append, List.length_append,
        List.take_of_length_le (by rw [List.length_append, List.length_singleton]; omega)]
      rfl
    rw [htake]
    exact List.mem_append_left _ hx
  obtain ⟨a, ha⟩ := hjudged' e (hmem e (List.mem_append_left _ he))
  obtain ⟨b, hb⟩ := hjudged' id (hmem id (List.mem_append_right _ (List.mem_singleton_self id)))
  exact hconsistent.gradeOf_eq ha hb hgroup

omit hjudged in
/-- **One more document of a group ranked above does not raise recall.** -/
theorem recallOf_insert_le :
    recallOf 𝕜 k documents (pre ++ id :: post) ≤ recallOf 𝕜 k documents (pre ++ post) := by
  refine div_le_div_of_nonneg_right (Nat.cast_le.mpr (Finset.card_le_card ?_)) (Nat.cast_nonneg _)
  intro groupId hmem
  obtain ⟨x, hx, rfl⟩ := mem_groupsOf.mp hmem
  obtain ⟨htake, hgrade⟩ := List.mem_filter.mp hx
  rcases mem_take_insert htake with ⟨rfl, hroom⟩ | hbefore
  · -- the document above retrieves the group already
    refine mem_groupsOf.mpr ⟨e, List.mem_filter.mpr ⟨?_, ?_⟩, hgroup⟩
    · rw [List.take_append, List.take_of_length_le hroom.le]
      exact List.mem_append_left _ he
    · rw [gradeOf_inserted hconsistent he hgroup hjudged' hroom]
      exact hgrade
  · exact mem_groupsOf.mpr ⟨x, List.mem_filter.mpr ⟨hbefore, hgrade⟩, rfl⟩

omit hjudged in
/-- **One more document of a group ranked above does not raise the reciprocal rank.** -/
theorem mrrOf_insert_le :
    mrrOf 𝕜 k documents (pre ++ id :: post) ≤ mrrOf 𝕜 k documents (pre ++ post) := by
  rw [mrrOf, mrrOf]
  rcases Nat.lt_or_ge pre.length k with hroom | hfull
  · obtain ⟨n, hn⟩ : ∃ n, k = pre.length + (n + 1) := ⟨k - pre.length - 1, by omega⟩
    have htake : ∀ xs : List String, (pre ++ xs).take k = pre ++ xs.take (n + 1) := by
      intro xs
      rw [hn, List.take_append, List.take_of_length_le (Nat.le_add_right _ _),
        Nat.add_sub_cancel_left]
    rw [htake, htake, List.take_succ_cons, firstRelevant, firstRelevant, List.findIdx?_append,
      List.findIdx?_append]
    cases hbefore : pre.findIdx? fun x => decide (relevantGrade ≤ gradeOf documents x) with
    | some i => exact le_rfl
    | none =>
      -- nothing above is relevant, so the inserted document is not
      have hnone := List.findIdx?_eq_none_iff.mp hbefore e he
      rw [gradeOf_inserted hconsistent he hgroup hjudged' hroom] at hnone
      rw [List.findIdx?_cons, hnone]
      have hshort : post.take n <+: post.take (n + 1) :=
        List.take_prefix_take_left (Nat.le_succ n)
      cases hafter : (post.take n).findIdx? fun x => decide (relevantGrade ≤ gradeOf documents x) with
      | none => exact (reciprocalRank_mem_Icc _).1
      | some i =>
        rw [hshort.findIdx?_eq_some hafter]
        show (1 : 𝕜) / (i + 1 + pre.length + 1 : ℕ) ≤ 1 / (i + pre.length + 1 : ℕ)
        refine one_div_le_one_div_of_le (Nat.cast_pos.mpr (Nat.succ_pos _)) (Nat.cast_le.mpr ?_)
        omega
  · rw [List.take_append_of_le_length hfull, List.take_append_of_le_length hfull]

end Insert

end Gains

end LivefireRag.Evaluation
