import LivefireRag.Lib.Text

/-!
# Tokens in a text

A token opens with a character that it does not have again, such as the placeholders of a
template. Two occurrences of a token never overlap, and an occurrence never reaches over the
opening of another token. So counting and replacing work piece by piece
(`countFrom_append_open`, `replaceFrom_append_open`), and a token that occurs in a text put
together of two pieces, but in neither piece, lies across the seam (`exists_straddle`).
-/

namespace Text

/-- The pattern opens with a character that it does not have again. -/
def IsToken (opening : Char) (token : List Char) : Prop :=
  ∃ body, token = opening :: body ∧ opening ∉ body

variable {opening : Char} {token replacement cs ds : List Char}

/-! ### Skipped characters -/

theorem countFrom_skip (pattern : List Char) {n : ℕ} (h : cs.length = n) :
    countFrom pattern n (cs ++ ds) = countFrom pattern 0 ds := by
  induction cs generalizing n with
  | nil =>
    obtain rfl : 0 = n := h
    rfl
  | cons c cs ih =>
    obtain rfl : cs.length + 1 = n := h
    exact ih rfl

theorem replaceFrom_skip (pattern replacement : List Char) {n : ℕ} (h : cs.length = n) :
    replaceFrom pattern replacement n (cs ++ ds) = replaceFrom pattern replacement 0 ds := by
  induction cs generalizing n with
  | nil =>
    obtain rfl : 0 = n := h
    rfl
  | cons c cs ih =>
    obtain rfl : cs.length + 1 = n := h
    exact ih rfl

/-! ### Where an occurrence can be -/

/-- An occurrence does not reach over an opening character. -/
theorem IsToken.isPrefixOf_append_open (h : IsToken opening token) (hcs : cs ≠ []) :
    token.isPrefixOf (cs ++ opening :: ds) = token.isPrefixOf cs := by
  rw [Bool.eq_iff_iff, List.isPrefixOf_iff_prefix, List.isPrefixOf_iff_prefix]
  refine ⟨fun hlong => ?_, fun hshort => hshort.trans (List.prefix_append cs _)⟩
  by_cases hlength : token.length ≤ cs.length
  · exact List.prefix_of_prefix_length_le hlong (List.prefix_append cs _) hlength
  · -- the opening character would be inside the token
    obtain ⟨body, rfl, hbody⟩ := h
    obtain ⟨rest, hrest⟩ := hlong
    exfalso
    have hposition : (opening :: body)[cs.length]? = some opening := by
      have hget := congrArg (fun l : List Char => l[cs.length]?) hrest
      rw [List.getElem?_append_left (by omega), List.getElem?_append_right le_rfl,
        Nat.sub_self] at hget
      exact hget
    obtain ⟨c, cs, rfl⟩ := List.exists_cons_of_ne_nil hcs
    rw [List.length_cons, List.getElem?_cons_succ] at hposition
    exact hbody (List.mem_of_getElem? hposition)

theorem IsToken.isPrefixOf_cons_of_ne (h : IsToken opening token) {c : Char} (hc : c ≠ opening) :
    token.isPrefixOf (c :: cs) = false := by
  obtain ⟨body, rfl, -⟩ := h
  rw [List.isPrefixOf_cons_cons]
  simp [hc.symm]

/-! ### Counting and replacing piece by piece -/

/-- **An opening character separates what stands before it from the rest.** -/
theorem IsToken.countFrom_append_open (h : IsToken opening token) {skip : ℕ}
    (hskip : skip ≤ cs.length) :
    countFrom token skip (cs ++ opening :: ds) =
      countFrom token skip cs + countFrom token 0 (opening :: ds) := by
  induction cs generalizing skip with
  | nil =>
    obtain rfl : skip = 0 := Nat.le_zero.mp hskip
    rw [List.nil_append, countFrom, Nat.zero_add]
  | cons c cs ih =>
    cases skip with
    | succ skip => exact ih (Nat.le_of_succ_le_succ hskip)
    | zero =>
      rw [List.cons_append, countFrom, countFrom, ← List.cons_append,
        h.isPrefixOf_append_open (List.cons_ne_nil c cs)]
      split_ifs with hprefix
      · -- the whole occurrence stands before the opening character
        have hlength := (List.isPrefixOf_iff_prefix.mp hprefix).length_le
        rw [List.length_cons] at hlength
        rw [ih (by omega), Nat.add_right_comm]
      · exact ih (Nat.zero_le _)

theorem IsToken.replaceFrom_append_open (h : IsToken opening token) (replacement : List Char)
    {skip : ℕ} (hskip : skip ≤ cs.length) :
    replaceFrom token replacement skip (cs ++ opening :: ds) =
      replaceFrom token replacement skip cs ++
        replaceFrom token replacement 0 (opening :: ds) := by
  induction cs generalizing skip with
  | nil =>
    obtain rfl : skip = 0 := Nat.le_zero.mp hskip
    rw [List.nil_append, replaceFrom, List.nil_append]
  | cons c cs ih =>
    cases skip with
    | succ skip => exact ih (Nat.le_of_succ_le_succ hskip)
    | zero =>
      rw [List.cons_append, replaceFrom, replaceFrom, ← List.cons_append,
        h.isPrefixOf_append_open (List.cons_ne_nil c cs)]
      split_ifs with hprefix
      · have hlength := (List.isPrefixOf_iff_prefix.mp hprefix).length_le
        rw [List.length_cons] at hlength
        rw [ih (by omega), List.append_assoc]
      · rw [ih (Nat.zero_le _), List.cons_append]

/-- What has no opening character has no occurrence. -/
theorem IsToken.countFrom_of_notMem (h : IsToken opening token) (hcs : opening ∉ cs) :
    countFrom token 0 (cs ++ ds) = countFrom token 0 ds := by
  induction cs with
  | nil => rfl
  | cons c cs ih =>
    rw [List.mem_cons, not_or] at hcs
    rw [List.cons_append, countFrom, h.isPrefixOf_cons_of_ne (Ne.symm hcs.1)]
    exact ih hcs.2

theorem IsToken.countFrom_eq_zero (h : IsToken opening token) (hcs : opening ∉ cs) :
    countFrom token 0 cs = 0 := by
  have hcount : countFrom token 0 (cs ++ []) = countFrom token 0 [] := h.countFrom_of_notMem hcs
  rw [List.append_nil] at hcount
  exact hcount

theorem IsToken.countFrom_token_append (h : IsToken opening token) :
    countFrom token 0 (token ++ ds) = countFrom token 0 ds + 1 := by
  obtain ⟨body, rfl, -⟩ := h
  have hprefix : (opening :: body).isPrefixOf (opening :: (body ++ ds)) = true :=
    List.isPrefixOf_iff_prefix.mpr (List.prefix_append (opening :: body) ds)
  rw [List.cons_append, countFrom, if_pos hprefix]
  exact congrArg (· + 1) (countFrom_skip _ rfl)

theorem IsToken.replaceFrom_token_append (h : IsToken opening token) (replacement : List Char) :
    replaceFrom token replacement 0 (token ++ ds) =
      replacement ++ replaceFrom token replacement 0 ds := by
  obtain ⟨body, rfl, -⟩ := h
  have hprefix : (opening :: body).isPrefixOf (opening :: (body ++ ds)) = true :=
    List.isPrefixOf_iff_prefix.mpr (List.prefix_append (opening :: body) ds)
  rw [List.cons_append, replaceFrom, if_pos hprefix]
  exact congrArg (replacement ++ ·) (replaceFrom_skip _ _ rfl)

/-- The occurrences before a token, the token itself, and those behind it. -/
theorem IsToken.countFrom_append_token_append (h : IsToken opening token) :
    countFrom token 0 (cs ++ token ++ ds) =
      countFrom token 0 cs + (countFrom token 0 ds + 1) := by
  rw [← h.countFrom_token_append]
  obtain ⟨body, rfl, hbody⟩ := h
  have htoken : IsToken opening (opening :: body) := ⟨body, rfl, hbody⟩
  rw [List.append_assoc, List.cons_append, htoken.countFrom_append_open (Nat.zero_le _)]

theorem IsToken.replaceFrom_append_token_append (h : IsToken opening token)
    (replacement : List Char) :
    replaceFrom token replacement 0 (cs ++ token ++ ds) =
      replaceFrom token replacement 0 cs ++
        (replacement ++ replaceFrom token replacement 0 ds) := by
  rw [← h.replaceFrom_token_append]
  obtain ⟨body, rfl, hbody⟩ := h
  have htoken : IsToken opening (opening :: body) := ⟨body, rfl, hbody⟩
  rw [List.append_assoc, List.cons_append, htoken.replaceFrom_append_open _ (Nat.zero_le _)]

/-- Without an occurrence nothing is replaced. -/
theorem replaceFrom_eq_self (h : countFrom token 0 cs = 0) :
    replaceFrom token replacement 0 cs = cs := by
  induction cs with
  | nil => rfl
  | cons c cs ih =>
    rw [countFrom] at h
    rw [replaceFrom]
    split_ifs at h ⊢ with hprefix
    · rw [ih h]

/-- Counting finds what is there. -/
theorem exists_occurrence (h : countFrom token 0 cs ≠ 0) :
    ∃ before after, cs = before ++ token ++ after := by
  induction cs with
  | nil => exact absurd rfl h
  | cons c cs ih =>
    rw [countFrom] at h
    split_ifs at h with hprefix
    · obtain ⟨after, hafter⟩ := List.isPrefixOf_iff_prefix.mp hprefix
      exact ⟨[], after, hafter.symm⟩
    · obtain ⟨before, after, rfl⟩ := ih h
      exact ⟨c :: before, after, rfl⟩

/-- A token that occurs once splits the text, and replacing it fills the gap. -/
theorem IsToken.exists_split (h : IsToken opening token) (hcount : countFrom token 0 cs = 1) :
    ∃ before after, cs = before ++ token ++ after ∧ countFrom token 0 before = 0 ∧
      countFrom token 0 after = 0 ∧
      ∀ replacement, replaceFrom token replacement 0 cs = before ++ (replacement ++ after) := by
  have hsome : countFrom token 0 cs ≠ 0 := by omega
  obtain ⟨before, after, rfl⟩ := exists_occurrence hsome
  rw [h.countFrom_append_token_append] at hcount
  have hbefore : countFrom token 0 before = 0 := by omega
  have hafter : countFrom token 0 after = 0 := by omega
  refine ⟨before, after, rfl, hbefore, hafter, fun replacement => ?_⟩
  rw [h.replaceFrom_append_token_append, replaceFrom_eq_self hbefore, replaceFrom_eq_self hafter]

/-- **A token across a seam.** It occurs in neither piece, but in both together. -/
theorem IsToken.exists_straddle (h : IsToken opening token) (hcs : countFrom token 0 cs = 0)
    (hds : countFrom token 0 ds = 0) (hboth : countFrom token 0 (cs ++ ds) ≠ 0) :
    ∃ before left right after, cs = before ++ left ∧ ds = right ++ after ∧
      left ++ right = token ∧ left ≠ [] ∧ right ≠ [] := by
  obtain ⟨before, after, hsplit⟩ := exists_occurrence hboth
  rw [List.append_assoc] at hsplit
  -- an occurrence inside one of the pieces would have been counted
  have hcsNot : ∀ u v, cs ≠ u ++ token ++ v := by
    rintro u v rfl
    rw [h.countFrom_append_token_append] at hcs
    omega
  have hdsNot : ∀ u v, ds ≠ u ++ token ++ v := by
    rintro u v rfl
    rw [h.countFrom_append_token_append] at hds
    omega
  rcases List.append_eq_append_iff.mp hsplit with ⟨gap, hbefore, hds'⟩ | ⟨left, hcs', hrest⟩
  · exact absurd (by rw [hds', List.append_assoc]) (hdsNot gap after)
  · rcases List.append_eq_append_iff.mp hrest with ⟨rest, hleft, hafter⟩ | ⟨right, htoken, hds'⟩
    · exact absurd (by rw [hcs', hleft, List.append_assoc]) (hcsNot before rest)
    · refine ⟨before, left, right, after, hcs', hds', htoken.symm, ?_, ?_⟩
      · rintro rfl
        exact hdsNot [] after (by rw [hds', htoken]; rfl)
      · rintro rfl
        rw [List.append_nil] at htoken
        exact hcsNot before [] (by rw [hcs', htoken, List.append_nil])

end Text
