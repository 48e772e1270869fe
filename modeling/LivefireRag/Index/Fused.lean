import Mathlib.Algebra.Order.Field.Basic
import Mathlib.Data.Prod.Lex
import Mathlib.Tactic.Linarith
import Mathlib.Tactic.Positivity
import LivefireRag.Lib.Fusion
import LivefireRag.Index.Search

/-!
# The fused ranking

With exact scores, the score of a document in the fused ranking is the sum of its credits
in the two rankings (`mem_reciprocalRankFusion`), and the ranking is the sorted list of
these sums (`reciprocalRankFusion_sorted`).
-/

namespace LivefireRag.Index

open Grouping Fusion

/-- The same arithmetic, with the scores that fusing adds and compares as exact numbers. -/
def Scoring.exact (scoring : Scoring ℚ) : Scoring ℚ :=
  { scoring with
    zero := 0
    add := fun x y => x + y
    reciprocalRank := fun rank => 1 / (60 + rank + 1)
    compare := fun x y => Ord.compare x y }

/-- What a place of a ranking is worth. -/
def rankWeight (rank : ℕ) : ℚ := 1 / (60 + rank + 1)

theorem rankWeight_pos (rank : ℕ) : 0 < rankWeight rank := by
  unfold rankWeight
  positivity

theorem rankWeight_strictAnti : StrictAnti rankWeight := by
  intro i j hij
  have hcast : (i : ℚ) < j := Nat.cast_lt.mpr hij
  exact one_div_lt_one_div_of_lt (by positivity) (by linarith)

/-- The order of the fused ranking: by falling score, then by id. -/
def fusedKey (entry : String × ℚ) : ℚᵒᵈ ×ₗ String := toLex (OrderDual.toDual entry.2, entry.1)

variable {scoring : Scoring ℚ} {dense lexical : Scores ℚ}

/-- The comparison of the search orders by the key. -/
theorem isLE_compare_eq (left right : String × ℚ) :
    ((Ord.compare right.2 left.2).then (Ord.compare left.1 right.1)).isLE =
      decide (fusedKey left ≤ fusedKey right) := by
  rw [Bool.eq_iff_iff, decide_eq_true_iff, fusedKey, fusedKey, Prod.Lex.toLex_le_toLex]
  simp only [OrderDual.toDual_lt_toDual, EmbeddingLike.apply_eq_iff_eq]
  rcases lt_trichotomy right.2 left.2 with hlt | heq | hgt
  · rw [compare_lt_iff_lt.mpr hlt]
    simp only [hlt, true_or, iff_true]
    rfl
  · rw [compare_eq_iff_eq.mpr heq, heq]
    simp only [lt_irrefl, true_and, false_or]
    show (Ord.compare left.1 right.1).isLE = true ↔ _
    rw [Ordering.isLE_iff_ne_gt]
    exact compare_gt_iff_gt.not.trans not_lt
  · rw [compare_gt_iff_gt.mpr hgt]
    simp only [hgt.not_gt, hgt.ne, false_and, or_self, iff_false]
    exact Bool.false_ne_true

theorem sortScores_exact (scores : Scores ℚ) :
    sortScores scoring.exact scores = Ranking.sortBy fusedKey scores := by
  have hcompare : (fun left right : String × ℚ =>
      ((scoring.exact.compare right.2 left.2).then (Ord.compare left.1 right.1)).isLE) =
      fun left right => decide (fusedKey left ≤ fusedKey right) := by
    ext left right
    rw [← isLE_compare_eq left right]
    rfl
  unfold sortScores Ranking.sortBy
  rw [hcompare]

/-! ### Scores -/

def idsOf (ranking : Scores ℚ) : List String := ranking.map Prod.fst

/-- The sum of the credits of a document. -/
def fusedScore (dense lexical : Scores ℚ) (id : String) : ℚ :=
  credit rankWeight (idsOf dense) id + credit rankWeight (idsOf lexical) id

/-- The values that a ranking contributes to a document: one when the ranking has it. -/
theorem valuesOf_mapIdx {ranking : Scores ℚ} (hnodup : (idsOf ranking).Nodup) (f : ℕ → ℚ)
    (id : String) : valuesOf id (ranking.mapIdx fun rank entry => (entry.1, f rank)) =
      ((idsOf ranking).idxOf? id).toList.map f := by
  induction ranking using List.reverseRecOn with
  | nil => rfl
  | append_singleton ranking entry ih =>
    rw [idsOf, List.map_append, List.map_singleton, ← idsOf] at hnodup ⊢
    have hfresh : entry.1 ∉ idsOf ranking := by
      have hdisjoint := (List.nodup_append.mp hnodup).2.2
      intro hmem
      exact hdisjoint entry.1 hmem entry.1 (List.mem_singleton_self _) rfl
    rw [List.mapIdx_concat, valuesOf_append, ih (List.nodup_append.mp hnodup).1, List.idxOf?,
      List.findIdx?_append, ← List.idxOf?]
    by_cases hid : entry.1 = id
    · subst hid
      rw [List.idxOf?_eq_none_iff.mpr hfresh, valuesOf_cons_self]
      simp [valuesOf, idsOf]
    · simp [valuesOf, hid]

/-- The places of a ranking as they are summed up. -/
def worthOf (ranking : Scores ℚ) : List (String × ℚ) :=
  ranking.mapIdx fun rank entry => (entry.1, 0 + rankWeight rank)

/-- The sums by document. -/
def fusedScores (dense lexical : Scores ℚ) : SortedMap String ℚ :=
  collect (fun x y => x + y) (worthOf dense ++ worthOf lexical)

theorem reciprocalRankFusion_exact : reciprocalRankFusion scoring.exact dense lexical =
    Ranking.sortBy fusedKey (fusedScores dense lexical).entries := by
  rw [← @sortScores_exact scoring]
  rfl

/-- What the two rankings are worth together. -/
theorem get?_fused (hdense : (idsOf dense).Nodup) (hlexical : (idsOf lexical).Nodup)
    (id : String) :
    (fusedScores dense lexical).get? id =
      if id ∈ idsOf dense ∨ id ∈ idsOf lexical then some (fusedScore dense lexical id)
      else none := by
  rw [fusedScores, worthOf, worthOf, get?_collect, valuesOf_append, valuesOf_mapIdx hdense,
    valuesOf_mapIdx hlexical, fusedScore, credit, credit]
  cases hd : (idsOf dense).idxOf? id with
  | none =>
    have hdnot : id ∉ idsOf dense := List.idxOf?_eq_none_iff.mp hd
    cases hl : (idsOf lexical).idxOf? id with
    | none =>
      have hlnot : id ∉ idsOf lexical := List.idxOf?_eq_none_iff.mp hl
      rw [if_neg (by simp only [hdnot, hlnot, or_self, not_false_eq_true])]
      rfl
    | some j =>
      have hlmem : id ∈ idsOf lexical := List.isSome_idxOf?.mp (by rw [hl]; rfl)
      rw [if_pos (.inr hlmem)]
      simp [combineAll]
  | some i =>
    have hdmem : id ∈ idsOf dense := List.isSome_idxOf?.mp (by rw [hd]; rfl)
    rw [if_pos (.inl hdmem)]
    cases hl : (idsOf lexical).idxOf? id with
    | none => simp [combineAll]
    | some j => simp [combineAll]

/-- An entry of the fused ranking is a document of one of the rankings with its score. -/
theorem mem_reciprocalRankFusion (hdense : (idsOf dense).Nodup)
    (hlexical : (idsOf lexical).Nodup) {id : String} {score : ℚ} :
    (id, score) ∈ reciprocalRankFusion scoring.exact dense lexical ↔
      (id ∈ idsOf dense ∨ id ∈ idsOf lexical) ∧ score = fusedScore dense lexical id := by
  rw [reciprocalRankFusion_exact, Ranking.mem_sortBy, ← SortedMap.get?_eq_some_iff,
    get?_fused hdense hlexical]
  split_ifs with hmem
  · simp only [hmem, true_and, Option.some.injEq]
    exact eq_comm
  · simp only [hmem, false_and]

/-- The ids of the fused ranking are distinct, and its entries fall in score. -/
theorem reciprocalRankFusion_sorted :
    (idsOf (reciprocalRankFusion scoring.exact dense lexical)).Nodup ∧
      (reciprocalRankFusion scoring.exact dense lexical).Pairwise
        fun x y => y.2 < x.2 ∨ x.2 = y.2 ∧ x.1 < y.1 := by
  have hids : ((fusedScores dense lexical).entries.map Prod.fst).Nodup := SortedMap.nodup_keys _
  have hkeys : ((fusedScores dense lexical).entries.map fusedKey).Nodup := by
    refine List.Nodup.of_map (fun key => (ofLex key).2) ?_
    rw [List.map_map]
    exact hids
  rw [reciprocalRankFusion_exact]
  refine ⟨((Ranking.sortBy_perm fusedKey _).map Prod.fst).nodup_iff.mpr hids, ?_⟩
  refine (Ranking.sortBy_pairwise_lt hkeys).imp fun {x y} hlt => ?_
  rw [fusedKey, fusedKey, Prod.Lex.toLex_lt_toLex] at hlt
  simpa only [OrderDual.toDual_lt_toDual, EmbeddingLike.apply_eq_iff_eq] using hlt

/-- A document that one ranking puts first, and the other does not put second, comes first. -/
theorem precedes_fused {first second : Scores ℚ} {a b : String}
    (hfirst : (idsOf first).Nodup) (hsecond : (idsOf second).Nodup)
    (h : Precedes (idsOf first) a b)
    (h' : Precedes (idsOf second) a b ∨ b ∉ idsOf second) :
    fusedScore first second b < fusedScore first second a :=
  credit_add_lt rankWeight_pos rankWeight_strictAnti hfirst hsecond h h'

/-- **The fused ranking is a sound merge** of the two rankings. -/
theorem fused_ranking_sound (scoring : Scoring ℚ) {dense lexical : Scores ℚ}
    (hdense : (idsOf dense).Nodup) (hlexical : (idsOf lexical).Nodup) :
    let fused := reciprocalRankFusion scoring.exact dense lexical
    (idsOf fused).Nodup ∧ (∀ id, id ∈ idsOf fused ↔ id ∈ idsOf dense ∨ id ∈ idsOf lexical) ∧
      (∀ entry ∈ fused, entry.2 = fusedScore dense lexical entry.1) ∧
      fused.Pairwise (fun x y => y.2 < x.2 ∨ x.2 = y.2 ∧ x.1 < y.1) ∧
      ∀ a b,
        (Precedes (idsOf dense) a b ∧
            (Precedes (idsOf lexical) a b ∨ b ∉ idsOf lexical) ∨
          Precedes (idsOf lexical) a b ∧
            (Precedes (idsOf dense) a b ∨ b ∉ idsOf dense)) →
        Precedes (idsOf fused) a b := by
  intro fused
  obtain ⟨hnodup, hsorted⟩ := @reciprocalRankFusion_sorted scoring dense lexical
  have hentry {id : String} {score : ℚ} := @mem_reciprocalRankFusion scoring dense lexical hdense
    hlexical id score
  refine ⟨hnodup, fun id => ?_, fun entry hmem => (hentry.mp hmem).2, hsorted, ?_⟩
  · rw [idsOf, List.mem_map]
    constructor
    · rintro ⟨entry, hmem, rfl⟩
      exact (hentry.mp hmem).1
    · intro hid
      exact ⟨(id, fusedScore dense lexical id), hentry.mpr ⟨hid, rfl⟩, rfl⟩
  · intro a b h
    have hfalls : fused.Pairwise fun x y => y.2 ≤ x.2 :=
      hsorted.imp fun hxy => hxy.elim le_of_lt fun heq => heq.1.ge
    -- in both cases the ranking that has the order lists both documents
    have hboth : (a ∈ idsOf dense ∨ a ∈ idsOf lexical) ∧ (b ∈ idsOf dense ∨ b ∈ idsOf lexical) ∧
        fusedScore dense lexical b < fusedScore dense lexical a := by
      rcases h with ⟨hd, hl⟩ | ⟨hl, hd⟩
      · exact ⟨.inl hd.mem_left, .inl hd.mem_right, precedes_fused hdense hlexical hd hl⟩
      · have hlt := precedes_fused hlexical hdense hl hd
        unfold fusedScore at hlt ⊢
        rw [add_comm (credit _ (idsOf lexical) b), add_comm (credit _ (idsOf lexical) a)] at hlt
        exact ⟨.inr hl.mem_left, .inr hl.mem_right, hlt⟩
    obtain ⟨ha, hb, hlt⟩ := hboth
    exact precedes_of_sorted hfalls (hentry.mpr ⟨ha, rfl⟩) (hentry.mpr ⟨hb, rfl⟩) hlt

/-- Exact scores. Fusing does not look at the other operations. -/
def sampleScoring : Scoring ℚ where
  zero := 0
  add := fun x y => x + y
  dot := fun _ _ => 0
  isFinite := fun _ => true
  isPositive := fun score => 0 < score
  unitNorm := fun _ => true
  termScore := fun _ _ _ _ _ => 0
  reciprocalRank := rankWeight
  compare := fun x y => Ord.compare x y

/-- The vectors find `a` before `b`, the terms find `c` alone. -/
theorem three_documents_fused :
    let fused := reciprocalRankFusion sampleScoring.exact [("a", 1), ("b", 1 / 2)] [("c", 2)]
    Precedes (idsOf fused) "a" "b" ∧ "c" ∈ idsOf fused := by
  intro fused
  obtain ⟨-, hids, -, -, hpareto⟩ := @fused_ranking_sound sampleScoring
    [("a", 1), ("b", 1 / 2)] [("c", 2)] (by decide) (by decide)
  have hfirst : Precedes (idsOf [("a", (1 : ℚ)), ("b", 1 / 2)]) "a" "b" :=
    ⟨0, 1, by decide, rfl, rfl⟩
  have habsent : "b" ∉ idsOf [("c", (2 : ℚ))] := by decide
  exact ⟨hpareto "a" "b" (.inl ⟨hfirst, .inr habsent⟩), (hids "c").mpr (.inr (by decide))⟩

end LivefireRag.Index
