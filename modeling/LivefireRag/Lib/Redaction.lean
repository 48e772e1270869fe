import Mathlib.Data.List.Infix
import LivefireRag.Lib.Pattern

/-!
# Redacting bounded matches

Matches of a pattern are to be replaced where no forbidden character stands beside them.
There are two ways to do it. One looks around while it matches: it replaces every leftmost
match, apart from each other, of the pattern between neighbours that are allowed
(`lookaroundChoice`). The other matches the pattern alone and looks at the neighbours
afterwards, keeping the match where one of them is forbidden, and goes on behind it
(`checkedChoice`).

The second way passes over what begins inside a match that it keeps. The two results are
equal exactly when no match that is kept for its neighbours hides a bounded one
(`render_eq_iff`). Even then a match can be left in the result, directly behind a
replacement, where the characters that are forbidden on its left are gone; otherwise the
result is clean (`clean_iff`).
-/

namespace Redaction

/-- A pattern, and the characters that may not stand beside a match. -/
structure BoundedPattern (α : Type) where
  pattern : Pattern α
  leftForbidden : α → Bool
  rightForbidden : α → Bool

/-- A part of a text: a character outside of matches, a match that is kept, and a match that
is replaced. -/
inductive Piece (α : Type) where
  | kept (c : α)
  | rejected (word : List α)
  | accepted (word : List α)
  deriving DecidableEq

variable {α : Type}

/-- There is no forbidden neighbour. -/
def free (forbidden : α → Bool) (neighbour : Option α) : Bool := !neighbour.any forbidden

/-- The character before, once a word has been read. -/
def lastOr (previous : Option α) (word : List α) : Option α := word.getLast?.or previous

def Piece.source : Piece α → List α
  | .kept c => [c]
  | .rejected word => word
  | .accepted word => word

def Piece.render (replacement : List α) : Piece α → List α
  | .kept c => [c]
  | .rejected word => word
  | .accepted _ => replacement

def sourceOf (pieces : List (Piece α)) : List α := pieces.flatMap Piece.source

def render (replacement : List α) (pieces : List (Piece α)) : List α :=
  pieces.flatMap (Piece.render replacement)

def pieceOf (allowed : Bool) (word : List α) : Piece α :=
  if allowed then .accepted word else .rejected word

/-- What begins at a position: whether it is allowed, and the word. -/
abbrev Choice (α : Type) := Option α → List α → Option (Bool × List α)

/-- The pieces of a text, left to right. A word is passed over once it is chosen. -/
def scan (choice : Choice α) : ℕ → Option α → List α → List (Piece α)
  | _, _, [] => []
  | skip + 1, _, c :: cs => scan choice skip (some c) cs
  | 0, previous, c :: cs =>
    match choice previous (c :: cs) with
    | some (allowed, word) => pieceOf allowed word :: scan choice (word.length - 1) (some c) cs
    | none => .kept c :: scan choice 0 (some c) cs

namespace BoundedPattern

variable (b : BoundedPattern α)

/-- The first match, with its neighbours looked at afterwards. -/
def checkedChoice : Choice α := fun previous xs =>
  (b.pattern.splits xs).head?.map fun split =>
    (free b.leftForbidden previous && free b.rightForbidden split.2.head?, split.1)

/-- The first match between allowed neighbours. -/
def lookaroundChoice : Choice α := fun previous xs =>
  if free b.leftForbidden previous then
    ((b.pattern.splits xs).find? fun split => free b.rightForbidden split.2.head?).map
      fun split => (true, split.1)
  else none

/-- A text is clean when none of its words matches between allowed neighbours. What stands
before the text counts. -/
def CleanFrom (previous : Option α) (text : List α) : Prop :=
  ∀ before word after, text = before ++ word ++ after → b.pattern.Matches word →
    ¬ (free b.leftForbidden (lastOr previous before) ∧ free b.rightForbidden after.head?)

end BoundedPattern

/-! ### Scans -/

theorem lastOr_append (previous : Option α) (u v : List α) :
    lastOr previous (u ++ v) = lastOr (lastOr previous u) v := by
  rw [lastOr, lastOr, lastOr, List.getLast?_append, Option.or_assoc]

theorem lastOr_cons (previous : Option α) (c : α) (w : List α) :
    lastOr previous (c :: w) = lastOr (some c) w := lastOr_append previous [c] w

theorem lastOr_of_ne_nil (previous other : Option α) {w : List α} (h : w ≠ []) :
    lastOr previous w = lastOr other w := by
  rw [lastOr, lastOr, List.getLast?_eq_some_getLast h]
  rfl

/-- Every word that is chosen is one at the start of the text. -/
def Proper (choice : Choice α) : Prop :=
  ∀ previous xs allowed word, choice previous xs = some (allowed, word) →
    word ≠ [] ∧ ∃ ys, xs = word ++ ys

variable {choice : Choice α} {previous : Option α} {c : α} {cs w xs ys : List α}
  {allowed : Bool}

theorem scan_nil (choice : Choice α) (skip : ℕ) (previous : Option α) :
    scan choice skip previous [] = [] := by
  cases skip <;> rfl

theorem scan_skip (choice : Choice α) (previous : Option α) (w ys : List α) :
    scan choice w.length previous (w ++ ys) = scan choice 0 (lastOr previous w) ys := by
  induction w generalizing previous with
  | nil => rfl
  | cons c w ih =>
    rw [lastOr_cons, ← ih]
    rfl

theorem scan_of_none (h : choice previous (c :: cs) = none) :
    scan choice 0 previous (c :: cs) = .kept c :: scan choice 0 (some c) cs := by
  rw [scan, h]

theorem scan_of_some (hw : w ≠ []) (h : choice previous (w ++ ys) = some (allowed, w)) :
    scan choice 0 previous (w ++ ys) =
      pieceOf allowed w :: scan choice 0 (lastOr previous w) ys := by
  cases w with
  | nil => exact absurd rfl hw
  | cons c w =>
    rw [List.cons_append] at h
    rw [lastOr_cons, ← scan_skip, List.cons_append, scan, h]
    rfl

/-- **The rule of a scan.** What holds of the empty text, and holds of a text when it holds
behind its first piece, holds of every text. -/
theorem scan_rule (hproper : Proper choice) {P : Option α → List α → Prop}
    (hnil : ∀ previous, P previous [])
    (hkept : ∀ previous c cs, choice previous (c :: cs) = none → P (some c) cs →
      P previous (c :: cs))
    (hword : ∀ previous allowed w ys, w ≠ [] → choice previous (w ++ ys) = some (allowed, w) →
      P (lastOr previous w) ys → P previous (w ++ ys)) :
    ∀ previous xs, P previous xs := by
  have hlength : ∀ n xs, xs.length ≤ n → ∀ previous, P previous xs := by
    intro n
    induction n with
    | zero =>
      intro xs hle previous
      obtain rfl := List.length_eq_zero_iff.mp (Nat.le_zero.mp hle)
      exact hnil previous
    | succ n ih =>
      intro xs hle previous
      cases xs with
      | nil => exact hnil previous
      | cons c cs =>
        cases hchoice : choice previous (c :: cs) with
        | none => exact hkept previous c cs hchoice (ih cs (Nat.le_of_succ_le_succ hle) _)
        | some found =>
          obtain ⟨allowed, w⟩ := found
          obtain ⟨hne, ys, hsplit⟩ := hproper _ _ _ _ hchoice
          rw [hsplit] at hchoice hle ⊢
          refine hword previous allowed w ys hne hchoice (ih ys ?_ _)
          have hpos := List.length_pos_iff.mpr hne
          rw [List.length_append] at hle
          omega
  exact fun previous xs => hlength xs.length xs (Nat.le_refl _) previous

theorem source_pieceOf (allowed : Bool) (w : List α) : (pieceOf allowed w).source = w := by
  cases allowed <;> rfl

theorem sourceOf_cons (piece : Piece α) (pieces : List (Piece α)) :
    sourceOf (piece :: pieces) = piece.source ++ sourceOf pieces := List.flatMap_cons

theorem render_cons (replacement : List α) (piece : Piece α) (pieces : List (Piece α)) :
    render replacement (piece :: pieces) =
      piece.render replacement ++ render replacement pieces := List.flatMap_cons

theorem sourceOf_append (pieces others : List (Piece α)) :
    sourceOf (pieces ++ others) = sourceOf pieces ++ sourceOf others := List.flatMap_append

theorem render_append (replacement : List α) (pieces others : List (Piece α)) :
    render replacement (pieces ++ others) =
      render replacement pieces ++ render replacement others := List.flatMap_append

/-- The pieces are those of the text. -/
theorem sourceOf_scan (hproper : Proper choice) :
    ∀ previous xs, sourceOf (scan choice 0 previous xs) = xs := by
  refine scan_rule hproper ?_ ?_ ?_
  · intro previous
    rw [scan_nil]
    rfl
  · intro previous c cs hnone ih
    rw [scan_of_none hnone, sourceOf_cons, ih]
    rfl
  · intro previous allowed w ys hne hchoice ih
    rw [scan_of_some hne hchoice, sourceOf_cons, source_pieceOf, ih]

/-- A scan goes on behind its first pieces as if it began there. -/
theorem scan_tail (hproper : Proper choice) : ∀ previous xs before after,
    scan choice 0 previous xs = before ++ after →
      after = scan choice 0 (lastOr previous (sourceOf before)) (sourceOf after) := by
  have hwhole : ∀ previous xs after, scan choice 0 previous xs = after →
      after = scan choice 0 previous (sourceOf after) := by
    rintro previous xs _ rfl
    rw [sourceOf_scan hproper]
  refine scan_rule hproper ?_ ?_ ?_
  · intro previous before after h
    rw [scan_nil] at h
    obtain ⟨rfl, rfl⟩ := List.append_eq_nil_iff.mp h.symm
    exact (scan_nil choice 0 _).symm
  · intro previous c cs hnone ih before after h
    cases before with
    | nil => exact hwhole _ _ _ h
    | cons piece before =>
      rw [scan_of_none hnone, List.cons_append] at h
      obtain ⟨rfl, hrest⟩ := List.cons.inj h
      rw [sourceOf_cons, lastOr_append]
      exact ih before after hrest
  · intro previous allowed w ys hne hchoice ih before after h
    cases before with
    | nil => exact hwhole _ _ _ h
    | cons piece before =>
      rw [scan_of_some hne hchoice, List.cons_append] at h
      obtain ⟨rfl, hrest⟩ := List.cons.inj h
      rw [sourceOf_cons, lastOr_append, source_pieceOf]
      exact ih before after hrest

theorem scan_congr {choice' : Choice α} (xs : List α) : ∀ skip previous,
    (∀ previous ys, ys <:+ xs → choice previous ys = choice' previous ys) →
    scan choice skip previous xs = scan choice' skip previous xs := by
  induction xs with
  | nil =>
    intro skip previous _
    rw [scan_nil, scan_nil]
  | cons c cs ih =>
    intro skip previous h
    have hrest := fun skip => ih skip (some c) fun previous ys hys =>
      h previous ys (hys.trans (List.suffix_cons c cs))
    cases skip with
    | zero => simp only [scan, h previous _ (List.suffix_refl (c :: cs)), hrest]
    | succ skip => exact hrest skip

/-! ### The two choices -/

namespace BoundedPattern

variable {b : BoundedPattern α} {replacement : List α}

/-- A bounded match begins between this character and the text. -/
def BeginsAt (b : BoundedPattern α) (previous : Option α) (text : List α) : Prop :=
  ∃ w ys, text = w ++ ys ∧ b.pattern.Matches w ∧ free b.leftForbidden previous ∧
    free b.rightForbidden ys.head?

theorem checkedChoice_eq_none_iff :
    b.checkedChoice previous xs = none ↔ b.pattern.splits xs = [] := by
  rw [checkedChoice, Option.map_eq_none_iff, List.head?_eq_none_iff]

/-- Nothing that matches alone is left unseen. -/
theorem not_beginsAt_of_checkedChoice (h : b.checkedChoice previous xs = none)
    (other : Option α) : ¬ b.BeginsAt other xs := by
  rintro ⟨w, ys, htext, hmatches, -, -⟩
  have hmem := Pattern.mem_splits_iff.mpr ⟨htext.symm, hmatches⟩
  rw [checkedChoice_eq_none_iff.mp h] at hmem
  cases hmem

theorem lookaroundChoice_eq_none_iff :
    b.lookaroundChoice previous xs = none ↔ ¬ b.BeginsAt previous xs := by
  rw [lookaroundChoice]
  split
  · next hfree =>
    rw [Option.map_eq_none_iff, List.find?_eq_none]
    constructor
    · rintro hnone ⟨w, ys, rfl, hmatches, -, hright⟩
      exact hnone _ (Pattern.mem_splits_iff.mpr ⟨rfl, hmatches⟩) hright
    · intro hbegins split hmem hright
      obtain ⟨htext, hmatches⟩ := Pattern.mem_splits_iff.mp hmem
      exact hbegins ⟨_, _, htext.symm, hmatches, hfree, hright⟩
  · next hfree =>
    refine iff_of_true rfl ?_
    rintro ⟨-, -, -, -, hleft, -⟩
    exact hfree hleft

theorem checkedChoice_spec (h : b.checkedChoice previous xs = some (allowed, w)) :
    ∃ ys, xs = w ++ ys ∧ b.pattern.Matches w ∧ (b.pattern.splits xs).head? = some (w, ys) ∧
      allowed = (free b.leftForbidden previous && free b.rightForbidden ys.head?) := by
  obtain ⟨split, hhead, hsplit⟩ := Option.map_eq_some_iff.mp h
  obtain ⟨rfl, rfl⟩ := Prod.mk.inj hsplit
  obtain ⟨htext, hmatches⟩ := Pattern.mem_splits_iff.mp (List.mem_of_mem_head? hhead)
  exact ⟨split.2, htext.symm, hmatches, hhead, rfl⟩

theorem lookaroundChoice_spec (h : b.lookaroundChoice previous xs = some (allowed, w)) :
    (∃ ys, xs = w ++ ys) ∧ b.pattern.Matches w ∧ allowed = true := by
  rw [lookaroundChoice] at h
  split at h
  · obtain ⟨split, hfind, hsplit⟩ := Option.map_eq_some_iff.mp h
    obtain ⟨rfl, rfl⟩ := Prod.mk.inj hsplit
    obtain ⟨htext, hmatches⟩ := Pattern.mem_splits_iff.mp (List.mem_of_find?_eq_some hfind)
    exact ⟨⟨split.2, htext.symm⟩, hmatches, rfl⟩
  · cases h

/-- Where the first match is allowed, both ways choose it. -/
theorem lookaroundChoice_of_accepted (h : b.checkedChoice previous xs = some (true, w)) :
    b.lookaroundChoice previous xs = some (true, w) := by
  obtain ⟨ys, -, -, hhead, hallowed⟩ := checkedChoice_spec h
  obtain ⟨hleft, hright⟩ := Bool.and_eq_true_iff.mp hallowed.symm
  obtain ⟨others, hsplits⟩ := List.head?_eq_some_iff.mp hhead
  have hfirst : (b.pattern.splits xs).find? (fun split => free b.rightForbidden split.2.head?) =
      some (w, ys) := by
    rw [hsplits, List.find?_cons]
    simp only [hright]
  rw [lookaroundChoice, if_pos hleft, hfirst]
  rfl

theorem proper_checkedChoice (hends : b.pattern.EndsIn b.leftForbidden) :
    Proper b.checkedChoice := by
  intro previous xs allowed w h
  obtain ⟨ys, htext, hmatches, -, -⟩ := checkedChoice_spec h
  exact ⟨hends.ne_nil hmatches, ys, htext⟩

theorem proper_lookaroundChoice (hends : b.pattern.EndsIn b.leftForbidden) :
    Proper b.lookaroundChoice := by
  intro previous xs allowed w h
  obtain ⟨htext, hmatches, -⟩ := lookaroundChoice_spec h
  exact ⟨hends.ne_nil hmatches, htext⟩

/-! ### What the second way passes over -/

/-- The text with the matches replaced whose neighbours are allowed. -/
def redactChecked (b : BoundedPattern α) (replacement : List α) (previous : Option α)
    (text : List α) : List α :=
  render replacement (scan b.checkedChoice 0 previous text)

/-- The text with the matches replaced that are found between allowed neighbours. -/
def redactLookaround (b : BoundedPattern α) (replacement : List α) (previous : Option α)
    (text : List α) : List α :=
  render replacement (scan b.lookaroundChoice 0 previous text)

/-- Patterns that match alike in a text are redacted alike. -/
theorem redactLookaround_congr {r : Pattern α} (h : b.pattern.AgreeOn r xs)
    (replacement : List α) (previous : Option α) :
    b.redactLookaround replacement previous xs =
      redactLookaround ⟨r, b.leftForbidden, b.rightForbidden⟩ replacement previous xs := by
  refine congrArg (render replacement) (scan_congr xs 0 previous ?_)
  intro previous ys hys
  rw [lookaroundChoice, lookaroundChoice, h ys hys]

/-- No match that is kept for its neighbours hides a bounded one, which begins inside it. -/
def NothingHidden (b : BoundedPattern α) (previous : Option α) (text : List α) : Prop :=
  ∀ before w after, scan b.checkedChoice 0 previous text = before ++ .rejected w :: after →
    ∀ u v, w = u ++ v → v ≠ [] →
      ¬ b.BeginsAt (lastOr previous (sourceOf before ++ u)) (v ++ sourceOf after)

theorem nothingHidden_nil : b.NothingHidden previous [] := by
  intro before w after h
  rw [scan_nil] at h
  cases (List.append_eq_nil_iff.mp h.symm).2

/-- What is passed over, piece by piece. -/
theorem nothingHidden_cons (hproper : Proper b.checkedChoice) (piece : Piece α)
    (h : scan b.checkedChoice 0 previous xs =
      piece :: scan b.checkedChoice 0 (lastOr previous piece.source) ys) :
    b.NothingHidden previous xs ↔
      (∀ w, piece = .rejected w → ∀ u v, w = u ++ v → v ≠ [] →
        ¬ b.BeginsAt (lastOr previous u) (v ++ ys)) ∧
      b.NothingHidden (lastOr previous piece.source) ys := by
  constructor
  · intro hnothing
    refine ⟨?_, ?_⟩
    · rintro w rfl u v hw hv
      have hhere := hnothing [] w _ h u v hw hv
      rwa [sourceOf_scan hproper] at hhere
    · intro before w after hscan u v hw hv
      have hlater := hnothing (piece :: before) w after (by rw [h, hscan]; rfl) u v hw hv
      rwa [sourceOf_cons, List.append_assoc, lastOr_append] at hlater
  · rintro ⟨hhere, hlater⟩ before w after hscan u v hw hv
    rw [h] at hscan
    cases before with
    | nil =>
      obtain ⟨rfl, rfl⟩ := List.cons.inj hscan
      rw [sourceOf_scan hproper]
      exact hhere w rfl u v hw hv
    | cons first before =>
      obtain ⟨rfl, hrest⟩ := List.cons.inj hscan
      rw [sourceOf_cons, List.append_assoc, lastOr_append]
      exact hlater before w after hrest u v hw hv

theorem render_kept (replacement : List α) (w : List α) (pieces : List (Piece α)) :
    render replacement (w.map Piece.kept ++ pieces) = w ++ render replacement pieces := by
  induction w with
  | nil => rfl
  | cons c w ih => rw [List.map_cons, List.cons_append, render_cons, ih]; rfl

/-- A word in which no bounded match begins is kept by the first way. -/
theorem scan_lookaround_word (w ys : List α) : ∀ previous,
    (∀ u v, w = u ++ v → v ≠ [] → ¬ b.BeginsAt (lastOr previous u) (v ++ ys)) →
    scan b.lookaroundChoice 0 previous (w ++ ys) =
      w.map .kept ++ scan b.lookaroundChoice 0 (lastOr previous w) ys := by
  induction w with
  | nil =>
    intro previous _
    rfl
  | cons c w ih =>
    intro previous hbegins
    have hnone : b.lookaroundChoice previous (c :: (w ++ ys)) = none :=
      lookaroundChoice_eq_none_iff.mpr (hbegins [] (c :: w) rfl (List.cons_ne_nil c w))
    rw [List.cons_append, scan_of_none hnone, lastOr_cons, ih (some c)]
    · rfl
    · intro u v hw hv
      rw [← lastOr_cons previous]
      exact hbegins (c :: u) v (by rw [hw]; rfl) hv

/-- In a word in which a bounded match begins, the first way replaces one. -/
theorem exists_accepted_of_beginsAt (w ys : List α) : ∀ previous u v, w = u ++ v → v ≠ [] →
    b.BeginsAt (lastOr previous u) (v ++ ys) →
    ∃ u v m rest, w = u ++ v ∧ v ≠ [] ∧
      scan b.lookaroundChoice 0 previous (w ++ ys) = u.map .kept ++ .accepted m :: rest := by
  induction w with
  | nil =>
    intro previous u v hw hv _
    exact absurd (List.append_eq_nil_iff.mp hw.symm).2 hv
  | cons c w ih =>
    intro previous u v hw hv hbegins
    rw [List.cons_append]
    cases hchoice : b.lookaroundChoice previous (c :: (w ++ ys)) with
    | some found =>
      -- a match that begins here is replaced at once
      obtain ⟨allowed, m⟩ := found
      obtain ⟨-, -, rfl⟩ := lookaroundChoice_spec hchoice
      refine ⟨[], c :: w, m, scan b.lookaroundChoice (m.length - 1) (some c) (w ++ ys), rfl,
        List.cons_ne_nil c w, ?_⟩
      rw [scan, hchoice]
      rfl
    | none =>
      cases u with
      | nil =>
        rw [List.nil_append] at hw
        rw [← hw] at hbegins
        exact absurd hbegins (lookaroundChoice_eq_none_iff.mp hchoice)
      | cons d u =>
        obtain ⟨rfl, rfl⟩ := List.cons.inj hw
        rw [lastOr_cons] at hbegins
        obtain ⟨u', v', m, rest, hw', hv', hscan⟩ := ih (some c) u v rfl hv hbegins
        refine ⟨c :: u', v', m, rest, by rw [hw']; rfl, hv', ?_⟩
        rw [scan_of_none hchoice, hscan]
        rfl

/-- **The two ways agree exactly when nothing is hidden.** No match has the character that
opens the replacement. -/
theorem redactChecked_eq_iff {opening : α} {closing : List α}
    (hends : b.pattern.EndsIn b.leftForbidden)
    (hopening : ∀ w, b.pattern.Matches w → opening ∉ w) : ∀ previous xs,
    b.redactChecked (opening :: closing) previous xs =
      b.redactLookaround (opening :: closing) previous xs ↔ b.NothingHidden previous xs := by
  have hproper := proper_checkedChoice hends
  refine scan_rule hproper ?_ ?_ ?_
  · intro previous
    refine iff_of_true ?_ nothingHidden_nil
    rw [redactChecked, redactLookaround, scan_nil, scan_nil]
  · intro previous c cs hnone ih
    have hchecked := scan_of_none hnone
    have hlookaround := scan_of_none
      (lookaroundChoice_eq_none_iff.mpr (not_beginsAt_of_checkedChoice hnone previous))
    rw [nothingHidden_cons hproper (.kept c) hchecked, redactChecked, redactLookaround, hchecked,
      hlookaround, render_cons, render_cons, List.append_right_inj]
    refine ih.trans (and_iff_right ?_).symm
    intro w hpiece
    cases hpiece
  · intro previous allowed w ys hne hchoice ih
    have hchecked := scan_of_some hne hchoice
    cases allowed with
    | true =>
      rw [nothingHidden_cons hproper (.accepted w) hchecked, redactChecked, redactLookaround,
        hchecked, scan_of_some hne (lookaroundChoice_of_accepted hchoice), render_cons,
        render_cons, List.append_right_inj]
      refine ih.trans (and_iff_right ?_).symm
      intro w hpiece
      cases hpiece
    | false =>
      rw [nothingHidden_cons hproper (.rejected w) hchecked, redactChecked, hchecked, render_cons,
        redactLookaround]
      by_cases hbegins : ∃ u v, w = u ++ v ∧ v ≠ [] ∧
          b.BeginsAt (lastOr previous u) (v ++ ys)
      · -- a bounded match is hidden: the first way opens a replacement inside the word
        obtain ⟨u, v, hw, hv, hbegins⟩ := hbegins
        refine iff_of_false ?_ fun hnothing => hnothing.1 w rfl u v hw hv hbegins
        obtain ⟨u, v, m, rest, hw, hv, hscan⟩ :=
          exists_accepted_of_beginsAt w ys previous u v hw hv hbegins
        intro heq
        rw [hscan, render_kept, render_cons] at heq
        obtain ⟨ys', -, hmatches, -, -⟩ := checkedChoice_spec hchoice
        cases v with
        | nil => exact hv rfl
        | cons c v =>
          have hsource : (pieceOf false w).render (opening :: closing) = u ++ c :: v := hw
          rw [hsource, List.append_assoc, List.append_right_inj] at heq
          obtain ⟨rfl, -⟩ := List.cons.inj heq
          exact hopening w hmatches (hw ▸ List.mem_append_right u List.mem_cons_self)
      · have hnone : ∀ u v, w = u ++ v → v ≠ [] →
            ¬ b.BeginsAt (lastOr previous u) (v ++ ys) :=
          fun u v hw hv h => hbegins ⟨u, v, hw, hv, h⟩
        rw [scan_lookaround_word w ys previous hnone, render_kept]
        refine (List.append_right_inj w).trans (ih.trans (and_iff_right ?_).symm)
        rintro w' hpiece
        obtain rfl := Piece.rejected.inj hpiece
        exact hnone

/-! ### What is left in the result -/

/-- The text before the next match that is replaced. -/
def lead : List (Piece α) → List α
  | [] => []
  | .kept c :: pieces => c :: lead pieces
  | .rejected w :: pieces => w ++ lead pieces
  | .accepted _ :: _ => []

theorem length_lead_rejected (w : List α) (pieces : List (Piece α)) :
    (lead (.rejected w :: pieces)).length = w.length + (lead pieces).length :=
  List.length_append

/-- Directly behind a match that is replaced, no match ends between it and the next one
before a character that is allowed there. -/
def NothingBehind (b : BoundedPattern α) (previous : Option α) (text : List α) : Prop :=
  ∀ before w after, scan b.checkedChoice 0 previous text = before ++ .accepted w :: after →
    ∀ v z, lead after = v ++ z → b.pattern.Matches v → ∃ c ∈ z.head?, b.rightForbidden c

/-- A character that stands in no match, and may stand behind one. -/
structure Separates (b : BoundedPattern α) (m : α) : Prop where
  notMem : ∀ w, b.pattern.Matches w → m ∉ w
  allowed : b.rightForbidden m = false

/-- A replacement that no match touches, in which there is none, and behind which one may
begin. -/
structure Sealed (b : BoundedPattern α) (opening : α) (inner : List α) (closing : α) :
    Prop where
  separates_opening : b.Separates opening
  separates_closing : b.Separates closing
  begins : b.leftForbidden closing = false
  clean : b.CleanFrom (some opening) inner

theorem free_head?_append_cons {forbidden : α → Bool} {m : α} (hm : forbidden m = false)
    (z post : List α) : free forbidden (z ++ m :: post).head? = free forbidden z.head? := by
  cases z with
  | nil => simp [free, hm]
  | cons c z => rfl

/-- One of two prefixes of a text ends within the other, or they end together. -/
theorem append_eq_append_cases {u v : List α} (h : u ++ xs = v ++ ys) :
    (∃ z, v = u ++ z ∧ xs = z ++ ys) ∨ ∃ z, z ≠ [] ∧ u = v ++ z ∧ ys = z ++ xs := by
  rcases List.append_eq_append_iff.mp h with ⟨z, hv, hxs⟩ | ⟨z, hu, hys⟩
  · exact .inl ⟨z, hv, hxs⟩
  · cases z with
    | nil => exact .inl ⟨[], by rw [hu, List.append_nil, List.append_nil], hys.symm⟩
    | cons d z => exact .inr ⟨d :: z, List.cons_ne_nil d z, hu, hys⟩

/-- A word without a character stands before it or behind it. -/
theorem append_eq_of_notMem {m : α} (hm : m ∉ w) {before after pre post : List α}
    (h : before ++ w ++ after = pre ++ m :: post) :
    (∃ z, pre = before ++ w ++ z ∧ after = z ++ m :: post) ∨
      ∃ z, before = pre ++ m :: z ∧ post = z ++ w ++ after := by
  rcases append_eq_append_cases h with hbehind | ⟨z, hz, hword, hpost⟩
  · exact .inl hbehind
  · cases z with
    | nil => exact absurd rfl hz
    | cons d z =>
      obtain ⟨rfl, rfl⟩ := List.cons.inj hpost
      -- the character is the first behind `pre`, and not one of the word
      rcases append_eq_append_cases hword with ⟨t, rfl, rfl⟩ | ⟨t, ht, rfl, hrest⟩
      · exact absurd (List.mem_append_right t List.mem_cons_self) hm
      · cases t with
        | nil => exact absurd rfl ht
        | cons d t =>
          obtain ⟨rfl, rfl⟩ := List.cons.inj hrest
          exact .inr ⟨t, rfl, rfl⟩

/-- Texts with a separator between them are clean apart. -/
theorem cleanFrom_append_cons {m : α} (hm : b.Separates m) (pre post : List α) :
    b.CleanFrom previous (pre ++ m :: post) ↔
      b.CleanFrom previous pre ∧ b.CleanFrom (some m) post := by
  constructor
  · intro hclean
    refine ⟨?_, ?_⟩
    · rintro before w after rfl hmatches
      rw [← free_head?_append_cons hm.allowed after post]
      exact hclean before w (after ++ m :: post) (by simp only [List.append_assoc]) hmatches
    · rintro before w after rfl hmatches
      rw [← lastOr_cons (lastOr previous pre), ← lastOr_append]
      exact hclean (pre ++ m :: before) w after (by simp) hmatches
  · rintro ⟨hpre, hpost⟩ before w after htext hmatches
    rcases append_eq_of_notMem (hm.notMem w hmatches) htext.symm with
      ⟨z, rfl, rfl⟩ | ⟨z, rfl, rfl⟩
    · rw [free_head?_append_cons hm.allowed]
      exact hpre before w z rfl hmatches
    · rw [lastOr_append, lastOr_cons]
      exact hpost z w after rfl hmatches

theorem separates_of_uses {m : α} (huses : b.pattern.uses m = false)
    (hallowed : b.rightForbidden m = false) : b.Separates m := by
  refine ⟨?_, hallowed⟩
  intro w hmatches hmem
  rw [hmatches.uses hmem] at huses
  cases huses

/-- A text without a character that every match has is clean. -/
theorem cleanFrom_of_demands {c : α} (hdemands : b.pattern.Demands c) (hc : c ∉ xs) :
    b.CleanFrom previous xs := by
  rintro before w after rfl hmatches -
  exact hc (List.mem_append_left after (List.mem_append_right before (hdemands w hmatches)))

/-- A text is clean when no match begins at any of its positions. -/
theorem cleanFrom_of_tails (h : ∀ rest ∈ xs.tails, b.pattern.splits rest = []) :
    b.CleanFrom previous xs := by
  rintro before w after rfl hmatches -
  have htail : w ++ after ∈ (before ++ w ++ after).tails := by
    rw [List.mem_tails, List.append_assoc]
    exact List.suffix_append before (w ++ after)
  have hmem : (w, after) ∈ b.pattern.splits (w ++ after) :=
    Pattern.mem_splits_iff.mpr ⟨rfl, hmatches⟩
  rw [h _ htail] at hmem
  cases hmem

/-- What holds behind every match that is replaced. -/
def BehindAccepted (P : List (Piece α) → Prop) (pieces : List (Piece α)) : Prop :=
  ∀ before w after, pieces = before ++ .accepted w :: after → P after

theorem behindAccepted_cons {P : List (Piece α) → Prop} {piece : Piece α}
    {pieces : List (Piece α)} : BehindAccepted P (piece :: pieces) ↔
      (∀ w, piece = .accepted w → P pieces) ∧ BehindAccepted P pieces := by
  constructor
  · intro h
    refine ⟨?_, ?_⟩
    · rintro w rfl
      exact h [] w pieces rfl
    · rintro before w after rfl
      exact h (piece :: before) w after rfl
  · rintro ⟨hhere, hlater⟩ before w after h
    cases before with
    | nil =>
      obtain ⟨rfl, rfl⟩ := List.cons.inj h
      exact hhere w rfl
    | cons first before =>
      obtain ⟨-, hrest⟩ := List.cons.inj h
      exact hlater before w after hrest

/-- The result is clean when the text before the first replacement is, and the text behind
each one. -/
theorem cleanFrom_render_iff {opening closing : α} {inner : List α}
    (hsealed : b.Sealed opening inner closing) (pieces : List (Piece α)) : ∀ left run,
    b.CleanFrom left (run ++ render (opening :: inner ++ [closing]) pieces) ↔
      b.CleanFrom left (run ++ lead pieces) ∧
      BehindAccepted (fun after => b.CleanFrom (some closing) (lead after)) pieces := by
  induction pieces with
  | nil =>
    intro left run
    refine (and_iff_left ?_).symm
    intro before w after h
    cases (List.append_eq_nil_iff.mp h.symm).2
  | cons piece pieces ih =>
    intro left run
    rw [behindAccepted_cons, render_cons]
    cases piece with
    | kept c =>
      have hrun := ih left (run ++ [c])
      rw [List.append_assoc, List.append_assoc] at hrun
      refine hrun.trans (and_congr_right fun _ => (and_iff_right ?_).symm)
      intro w hpiece
      cases hpiece
    | rejected word =>
      have hrun := ih left (run ++ word)
      rw [List.append_assoc, List.append_assoc] at hrun
      refine hrun.trans (and_congr_right fun _ => (and_iff_right ?_).symm)
      intro w hpiece
      cases hpiece
    | accepted word =>
      -- the replacement closes the run, and another begins behind it
      have htext : run ++ ((Piece.accepted word).render (opening :: inner ++ [closing]) ++
          render (opening :: inner ++ [closing]) pieces) =
          run ++ opening ::
            (inner ++ closing :: render (opening :: inner ++ [closing]) pieces) := by
        rw [Piece.render, List.cons_append, List.cons_append, List.append_assoc]
        rfl
      have hrest := ih (some closing) []
      rw [List.nil_append, List.nil_append] at hrest
      rw [htext, cleanFrom_append_cons hsealed.separates_opening,
        cleanFrom_append_cons hsealed.separates_closing, hrest, lead, List.append_nil]
      refine and_congr_right fun _ => ?_
      rw [and_iff_right hsealed.clean]
      refine and_congr_left fun _ => ?_
      constructor
      · intro h w _
        exact h
      · intro h
        exact h word rfl

theorem NothingHidden.tail (hproper : Proper b.checkedChoice)
    (h : b.NothingHidden previous xs) {before after : List (Piece α)}
    (hscan : scan b.checkedChoice 0 previous xs = before ++ after) :
    b.NothingHidden (lastOr previous (sourceOf before)) (sourceOf after) := by
  intro first w rest hrest u v hw hv
  rw [← scan_tail hproper previous xs before after hscan] at hrest
  rw [hrest, ← List.append_assoc] at hscan
  have hhere := h (before ++ first) w rest hscan u v hw hv
  rwa [sourceOf_append, List.append_assoc, lastOr_append] at hhere

/-- Where nothing is hidden, no bounded match begins before the next one that is replaced. -/
theorem not_beginsAt_of_lead (hproper : Proper b.checkedChoice) : ∀ previous xs,
    b.NothingHidden previous xs → ∀ u ys, xs = u ++ ys →
      u.length < (lead (scan b.checkedChoice 0 previous xs)).length →
      ¬ b.BeginsAt (lastOr previous u) ys := by
  refine scan_rule hproper ?_ ?_ ?_
  · intro previous _ u ys _ hlength
    rw [scan_nil] at hlength
    cases hlength
  · intro previous c cs hnone ih hnothing u ys htext hlength
    have hchecked := scan_of_none hnone
    cases u with
    | nil =>
      rw [List.nil_append] at htext
      exact htext ▸ not_beginsAt_of_checkedChoice hnone _
    | cons d u =>
      obtain ⟨rfl, rfl⟩ := List.cons.inj htext
      rw [hchecked] at hlength
      rw [lastOr_cons]
      exact ih ((nothingHidden_cons hproper (.kept c) hchecked).mp hnothing).2 u ys rfl
        (Nat.lt_of_succ_lt_succ hlength)
  · intro previous allowed w rest hne hchoice ih hnothing u ys htext hlength
    have hchecked := scan_of_some hne hchoice
    rw [hchecked] at hlength
    cases allowed with
    | true => cases hlength
    | false =>
      obtain ⟨hhere, hlater⟩ := (nothingHidden_cons hproper (.rejected w) hchecked).mp hnothing
      rcases append_eq_append_cases htext with ⟨z, rfl, rfl⟩ | ⟨z, hz, rfl, rfl⟩
      · -- behind the word that is kept
        rw [lastOr_append]
        refine ih hlater z ys rfl ?_
        have hpiece : pieceOf false w = .rejected w := rfl
        rw [hpiece, length_lead_rejected, List.length_append] at hlength
        exact Nat.lt_of_add_lt_add_left hlength
      · exact hhere _ rfl u z rfl hz

/-- What stands before the next match that is replaced has an allowed left neighbour for
it. -/
theorem exists_lead_append (hproper : Proper b.checkedChoice) : ∀ previous xs, ∃ rest,
    xs = lead (scan b.checkedChoice 0 previous xs) ++ rest ∧
      (rest = [] ∨
        free b.leftForbidden (lastOr previous (lead (scan b.checkedChoice 0 previous xs)))) := by
  refine scan_rule hproper ?_ ?_ ?_
  · intro previous
    refine ⟨[], ?_, .inl rfl⟩
    rw [scan_nil]
    rfl
  · rintro previous c cs hnone ⟨rest, htext, hfree⟩
    rw [scan_of_none hnone]
    refine ⟨rest, congrArg (c :: ·) htext, hfree.imp_right ?_⟩
    rw [lead, lastOr_cons]
    exact id
  · rintro previous allowed w ys hne hchoice ⟨rest, htext, hfree⟩
    rw [scan_of_some hne hchoice]
    cases allowed with
    | true =>
      obtain ⟨ys', -, -, -, hallowed⟩ := checkedChoice_spec hchoice
      exact ⟨w ++ ys, rfl, .inr (Bool.and_eq_true_iff.mp hallowed.symm).1⟩
    | false =>
      have hpiece : pieceOf false w = .rejected w := rfl
      rw [hpiece, lead, lastOr_append]
      refine ⟨rest, ?_, hfree⟩
      rw [List.append_assoc, ← htext]

/-- Where nothing is hidden, the text before the next match that is replaced is clean. -/
theorem cleanFrom_lead (hends : b.pattern.EndsIn b.leftForbidden)
    (hnothing : b.NothingHidden previous xs) :
    b.CleanFrom previous (lead (scan b.checkedChoice 0 previous xs)) := by
  have hproper := proper_checkedChoice hends
  obtain ⟨rest, htext, hrest⟩ := exists_lead_append hproper previous xs
  rintro before w after hlead hmatches ⟨hleft, hright⟩
  have hlength : before.length < (lead (scan b.checkedChoice 0 previous xs)).length := by
    have hpos := List.length_pos_iff.mpr (hends.ne_nil hmatches)
    rw [hlead, List.length_append, List.length_append]
    omega
  rw [hlead] at htext hrest
  refine not_beginsAt_of_lead hproper previous xs hnothing before (w ++ (after ++ rest)) ?_ hlength
    ⟨w, after ++ rest, rfl, hmatches, hleft, ?_⟩
  · rw [htext, List.append_assoc, List.append_assoc]
  · cases after with
    | cons c after => exact hright
    | nil =>
      rcases hrest with rfl | hfree
      · exact hright
      · -- the next match would have the last character of this one on its left
        obtain ⟨c, hc, hforbidden⟩ := hends w hmatches
        rw [List.append_nil, lastOr_append, lastOr, hc] at hfree
        simp [free, hforbidden] at hfree

/-- Behind a replacement there is no character that is forbidden on the left of a match, so
that one may begin there. -/
theorem cleanFrom_some_iff {closing : α} (hclosing : b.leftForbidden closing = false)
    (hclean : b.CleanFrom previous xs) :
    b.CleanFrom (some closing) xs ↔
      ∀ v z, xs = v ++ z → b.pattern.Matches v → ∃ c ∈ z.head?, b.rightForbidden c := by
  constructor
  · intro h v z htext hmatches
    have hfree := h [] v z htext hmatches
    cases hz : z.head? with
    | none => simp [free, lastOr, hclosing, hz] at hfree
    | some c =>
      refine ⟨c, rfl, ?_⟩
      simpa [free, lastOr, hclosing, hz] using hfree
  · rintro h before w after htext hmatches ⟨hleft, hright⟩
    cases before with
    | nil =>
      obtain ⟨c, hc, hforbidden⟩ := h w after htext hmatches
      rw [hc] at hright
      simp [free, hforbidden] at hright
    | cons d before =>
      rw [lastOr_of_ne_nil (some closing) previous (List.cons_ne_nil d before)] at hleft
      exact hclean (d :: before) w after htext hmatches ⟨hleft, hright⟩

/-- **Where nothing is hidden, the result is clean exactly when nothing matches directly
behind a replacement.** -/
theorem cleanFrom_redactChecked_iff {opening closing : α} {inner : List α}
    (hends : b.pattern.EndsIn b.leftForbidden) (hsealed : b.Sealed opening inner closing)
    (hnothing : b.NothingHidden previous xs) :
    b.CleanFrom previous (b.redactChecked (opening :: inner ++ [closing]) previous xs) ↔
      b.NothingBehind previous xs := by
  have hproper := proper_checkedChoice hends
  have hrender := cleanFrom_render_iff hsealed (scan b.checkedChoice 0 previous xs) previous []
  rw [List.nil_append, List.nil_append] at hrender
  refine hrender.trans ((and_iff_right (cleanFrom_lead hends hnothing)).trans ?_)
  refine forall_congr' fun before => forall_congr' fun w => forall_congr' fun after =>
    forall_congr' fun hscan => ?_
  -- the text behind the match is scanned as if it began there
  have hsplit : scan b.checkedChoice 0 previous xs = (before ++ [.accepted w]) ++ after := by
    rw [hscan, List.append_assoc]
    rfl
  have hclean := cleanFrom_lead hends (hnothing.tail hproper hsplit)
  rw [← scan_tail hproper previous xs _ after hsplit] at hclean
  exact cleanFrom_some_iff hsealed.begins hclean

/-- **When the second way is complete.** Its result is that of the first way, and clean,
exactly when nothing is hidden in what it keeps and nothing matches behind what it
replaces. -/
theorem redactChecked_complete_iff {opening closing : α} {inner : List α}
    (hends : b.pattern.EndsIn b.leftForbidden) (hsealed : b.Sealed opening inner closing)
    (previous : Option α) (xs : List α) :
    b.redactChecked (opening :: inner ++ [closing]) previous xs =
        b.redactLookaround (opening :: inner ++ [closing]) previous xs ∧
      b.CleanFrom previous (b.redactChecked (opening :: inner ++ [closing]) previous xs) ↔
    b.NothingHidden previous xs ∧ b.NothingBehind previous xs := by
  have hagree := @redactChecked_eq_iff _ b opening (inner ++ [closing]) hends
    hsealed.separates_opening.notMem previous xs
  refine (and_congr_left fun _ => hagree).trans (and_congr_right fun hnothing => ?_)
  exact cleanFrom_redactChecked_iff hends hsealed hnothing

/-! ### Patterns for which the second way is always complete -/

theorem exists_sourceOf_eq_lead (pieces : List (Piece α)) :
    ∃ rest, sourceOf pieces = lead pieces ++ rest := by
  induction pieces with
  | nil => exact ⟨[], rfl⟩
  | cons piece pieces ih =>
    obtain ⟨rest, hrest⟩ := ih
    rw [sourceOf_cons, hrest]
    cases piece with
    | kept c => exact ⟨rest, rfl⟩
    | rejected w => exact ⟨rest, (List.append_assoc w (lead pieces) rest).symm⟩
    | accepted w => exact ⟨w ++ (lead pieces ++ rest), rfl⟩

/-- A match that is replaced has an allowed right neighbour. -/
theorem free_of_accepted (hproper : Proper b.checkedChoice) {after : List (Piece α)}
    (h : scan b.checkedChoice 0 previous xs = .accepted w :: after) :
    free b.rightForbidden (sourceOf after).head? := by
  cases xs with
  | nil => cases h
  | cons c cs =>
    cases hchoice : b.checkedChoice previous (c :: cs) with
    | none =>
      rw [scan_of_none hchoice] at h
      cases h
    | some found =>
      obtain ⟨allowed, word⟩ := found
      obtain ⟨hne, -⟩ := hproper _ _ _ _ hchoice
      obtain ⟨ys, htext, -, -, hallowed⟩ := checkedChoice_spec hchoice
      rw [htext] at hchoice h
      rw [scan_of_some hne hchoice] at h
      obtain ⟨hpiece, rfl⟩ := List.cons.inj h
      rw [sourceOf_scan hproper]
      cases allowed with
      | false => cases hpiece
      | true => exact (Bool.and_eq_true_iff.mp hallowed.symm).2

/-- Where every match begins with a character that is forbidden on the right, none begins
behind a replacement. -/
theorem nothingBehind_of_begins (hproper : Proper b.checkedChoice)
    (hbegins : b.pattern.BeginsIn b.rightForbidden)
    (previous : Option α) (xs : List α) : b.NothingBehind previous xs := by
  intro before w after hscan v z hlead hmatches
  exfalso
  have hfree := free_of_accepted hproper (scan_tail hproper previous xs before _ hscan).symm
  obtain ⟨rest, hrest⟩ := exists_sourceOf_eq_lead after
  obtain ⟨c, hc, hforbidden⟩ := hbegins v hmatches
  rw [hrest, hlead, List.append_assoc, List.head?_append, hc] at hfree
  simp [free, hforbidden] at hfree

/-- A match takes in its forbidden neighbours: it may be extended by them on its left, and
the first one goes up to the last of them on its right. -/
structure TakesNeighbours (b : BoundedPattern α) : Prop where
  begins : b.pattern.BeginsIn b.rightForbidden
  extends_left : ∀ c w, b.leftForbidden c → b.pattern.Matches w → b.pattern.Matches (c :: w)
  greedy : b.pattern.Greedy b.rightForbidden

/-- Such a pattern has no match that is kept for its neighbours. -/
theorem TakesNeighbours.notMem_scan (h : b.TakesNeighbours)
    (hends : b.pattern.EndsIn b.leftForbidden) : ∀ previous xs,
    (¬ free b.leftForbidden previous → b.pattern.splits xs = []) →
      ∀ w, .rejected w ∉ scan b.checkedChoice 0 previous xs := by
  have hproper := proper_checkedChoice hends
  refine scan_rule hproper ?_ ?_ ?_
  · intro previous _ w hmem
    rw [scan_nil] at hmem
    cases hmem
  · intro previous c cs hnone ih _ w hmem
    rw [scan_of_none hnone] at hmem
    refine ih ?_ w ((List.mem_cons.mp hmem).resolve_left nofun)
    intro hforbidden
    refine List.eq_nil_iff_forall_not_mem.mpr ?_
    rintro ⟨v, ys⟩ hsplit
    -- the match would begin one character earlier
    obtain ⟨rfl, hmatches⟩ := Pattern.mem_splits_iff.mp hsplit
    have hc : b.leftForbidden c := by simpa [free] using hforbidden
    have hearlier : (c :: v, ys) ∈ b.pattern.splits (c :: v ++ ys) :=
      Pattern.mem_splits_iff.mpr ⟨rfl, h.extends_left c v hc hmatches⟩
    rw [List.cons_append, checkedChoice_eq_none_iff.mp hnone] at hearlier
    cases hearlier
  · intro previous allowed w ys hne hchoice ih hprevious w' hmem
    obtain ⟨ys', htext, -, hhead, hallowed⟩ := checkedChoice_spec hchoice
    obtain rfl := List.append_cancel_left htext
    have hleft : free b.leftForbidden previous := by
      by_contra hforbidden
      rw [hprevious hforbidden] at hhead
      cases hhead
    have hgreedy := h.greedy _ _ _ hhead
    have hright : free b.rightForbidden ys.head? := by
      cases hys : ys.head? with
      | none => rfl
      | some c => simpa [free] using hgreedy c hys
    rw [hleft, hright] at hallowed
    rw [scan_of_some hne hchoice, hallowed] at hmem
    refine ih ?_ w' ((List.mem_cons.mp hmem).resolve_left nofun)
    intro _
    refine List.eq_nil_iff_forall_not_mem.mpr ?_
    rintro ⟨v, rest⟩ hsplit
    obtain ⟨rfl, hmatches⟩ := Pattern.mem_splits_iff.mp hsplit
    obtain ⟨c, hc, hforbidden⟩ := h.begins v hmatches
    refine hgreedy c ?_ hforbidden
    rw [List.head?_append, hc]
    rfl

theorem nothingHidden_of_notMem
    (h : ∀ w, .rejected w ∉ scan b.checkedChoice 0 previous xs) :
    b.NothingHidden previous xs := by
  intro before w after hscan
  have hnone := h w
  rw [hscan] at hnone
  exact absurd (List.mem_append_right before List.mem_cons_self) hnone

/-- Such a pattern is redacted completely. -/
theorem TakesNeighbours.nothingHidden (h : b.TakesNeighbours)
    (hends : b.pattern.EndsIn b.leftForbidden) (xs : List α) : b.NothingHidden none xs :=
  nothingHidden_of_notMem (h.notMem_scan hends none xs fun hforbidden => absurd rfl hforbidden)

end BoundedPattern

end Redaction
