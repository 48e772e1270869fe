import LivefireRag.Lib.Tokens
import LivefireRag.Embedding.Query

/-!
# Query compositions

A composition puts an instruction and a query into a template of two placeholders. The
check of a profile counts each placeholder, takes the instruction's out, takes the query's
out of what is left, and looks for braces. Taking the first placeholder out can join the
text around it to a second `{query}` (`Spliced`), which is then taken out as well; only such
compositions are accepted without being a template with literals free of braces
(`composition_closed_iff`).
-/

namespace LivefireRag.Embedding

open Machine Fallible Text

/-- A literal of a template. -/
def BraceFree (s : String) : Prop := '{' ∉ s.toList ∧ '}' ∉ s.toList

instance : DecidablePred BraceFree := fun s => by unfold BraceFree; infer_instance

/-- The literals of a composition, and which placeholder comes first. -/
structure QueryTemplate where
  instructionFirst : Bool
  before : String
  between : String
  after : String
  before_closed : BraceFree before
  between_closed : BraceFree between
  after_closed : BraceFree after

def QueryTemplate.fill (template : QueryTemplate) (instruction query : String) : String :=
  if template.instructionFirst then
    template.before ++ instruction ++ (template.between ++ query ++ template.after)
  else template.before ++ query ++ (template.between ++ instruction ++ template.after)

/-- The text around the instruction's placeholder would join to the query's. -/
def Spliced (composition : String) : Prop :=
  ∃ before left right after, composition.toList = before ++ left ++ instructionToken.toList ++
    (right ++ after) ∧ left ++ right = queryToken.toList ∧ left ≠ [] ∧ right ≠ []

theorem isToken_instructionToken : IsToken '{' instructionToken.toList :=
  ⟨instructionToken.toList.tail, by decide, by decide⟩

theorem isToken_queryToken : IsToken '{' queryToken.toList :=
  ⟨queryToken.toList.tail, by decide, by decide⟩

/-! ### The braces of a composition -/

def IsBrace (c : Char) : Bool := c = '{' ∨ c = '}'

/-- The braces of a text, in order. -/
def braces (cs : List Char) : List Char := cs.filter IsBrace

theorem braces_append (cs ds : List Char) : braces (cs ++ ds) = braces cs ++ braces ds :=
  List.filter_append ..

theorem braces_eq_nil {s : String} (h : BraceFree s) : braces s.toList = [] := by
  rw [braces, List.filter_eq_nil_iff]
  intro c hc hbrace
  rcases of_decide_eq_true hbrace with rfl | rfl
  · exact h.1 hc
  · exact h.2 hc

theorem braces_fill (template : QueryTemplate) :
    braces (template.fill instructionToken queryToken).toList = ['{', '}', '{', '}'] := by
  have hinstruction : braces instructionToken.toList = ['{', '}'] := by decide
  have hquery : braces queryToken.toList = ['{', '}'] := by decide
  unfold QueryTemplate.fill
  split
  all_goals
    simp only [String.toList_append, braces_append, braces_eq_nil template.before_closed,
      braces_eq_nil template.between_closed, braces_eq_nil template.after_closed, hinstruction,
      hquery]
    rfl

/-- Each part of a cut `{query}` has one of its braces. -/
theorem braces_of_cut {left right : List Char} (htoken : left ++ right = queryToken.toList)
    (hleft : left ≠ []) (hright : right ≠ []) : braces left = ['{'] ∧ braces right = ['}'] := by
  have hcut : ∀ n < 7, 0 < n → braces (queryToken.toList.take n) = ['{'] ∧
      braces (queryToken.toList.drop n) = ['}'] := by decide
  have hlength : left.length + right.length = 7 := by
    rw [← List.length_append, htoken]
    rfl
  have hlower := List.length_pos_iff.mpr hleft
  have hupper := List.length_pos_iff.mpr hright
  have hparts := hcut left.length (by omega) hlower
  rw [← htoken, List.take_left, List.drop_left] at hparts
  exact hparts

/-- A closed template is not spliced: its braces come in pairs. -/
theorem QueryTemplate.not_spliced (template : QueryTemplate) :
    ¬ Spliced (template.fill instructionToken queryToken) := by
  rintro ⟨before, left, right, after, hsplit, htoken, hleft, hright⟩
  have hinstruction : braces instructionToken.toList = ['{', '}'] := by decide
  obtain ⟨hopen, hclose⟩ := braces_of_cut htoken hleft hright
  have hbraces := braces_fill template
  rw [hsplit, braces_append, braces_append, braces_append, braces_append, hinstruction, hopen,
    hclose] at hbraces
  -- there are four braces, so none stands further out
  have hlength := congrArg List.length hbraces
  simp only [List.length_append, List.length_cons, List.length_nil] at hlength
  have hbefore : braces before = [] := List.length_eq_zero_iff.mp (by omega)
  have hafter : braces after = [] := List.length_eq_zero_iff.mp (by omega)
  rw [hbefore, hafter] at hbraces
  exact absurd hbraces (by decide)

/-! ### Accepted compositions -/

/-- An occurrence of a token stands before or behind another token. -/
theorem countFrom_around {token other cs ds : List Char} (h : IsToken '{' token)
    (h' : IsToken '{' other) (hne : token.isPrefixOf (other ++ ds) = false) :
    countFrom token 0 (cs ++ other ++ ds) = countFrom token 0 cs + countFrom token 0 ds := by
  obtain ⟨body, rfl, hbody⟩ := h'
  rw [List.cons_append] at hne
  rw [List.append_assoc, List.cons_append, h.countFrom_append_open (Nat.zero_le _)]
  conv_lhs => rw [countFrom.eq_def token 0 ('{' :: _)]
  simp only [hne]
  exact congrArg (countFrom token 0 cs + ·) (h.countFrom_of_notMem hbody)

/-- Three pieces without braces are the literals of a template. -/
theorem exists_template_of_pieces (instructionFirst : Bool) {cs ds es : List Char}
    (h : '{' ∉ cs ++ ([] ++ (ds ++ es)) ∧ '}' ∉ cs ++ ([] ++ (ds ++ es))) :
    ∃ template : QueryTemplate, ∀ instruction query,
      (template.fill instruction query).toList =
        if instructionFirst then cs ++ instruction.toList ++ (ds ++ query.toList ++ es)
        else cs ++ query.toList ++ (ds ++ instruction.toList ++ es) := by
  simp only [List.nil_append, List.mem_append, not_or] at h
  obtain ⟨⟨hopen, hopen', hopen''⟩, hclose, hclose', hclose''⟩ := h
  have hfree : ∀ literal : List Char, '{' ∉ literal → '}' ∉ literal →
      BraceFree (String.ofList literal) := by
    intro literal hno hno'
    rw [BraceFree, String.toList_ofList]
    exact ⟨hno, hno'⟩
  refine ⟨⟨instructionFirst, _, _, _, hfree cs hopen hclose, hfree ds hopen' hclose',
    hfree es hopen'' hclose''⟩, fun instruction query => ?_⟩
  unfold QueryTemplate.fill
  cases instructionFirst <;> simp only [Bool.false_eq_true, if_false, if_true,
    String.toList_append, String.toList_ofList]

/-- The check accepts a template, unless the composition is spliced. -/
theorem exists_queryTemplate {composition : String}
    (hquery : countMatches composition queryToken = 1)
    (hinstruction : countMatches composition instructionToken = 1)
    (hbraces : BraceFree (replace (replace composition instructionToken "") queryToken ""))
    (hspliced : ¬ Spliced composition) :
    ∃ template : QueryTemplate, composition = template.fill instructionToken queryToken := by
  obtain ⟨cs, ds, hsplit, -, -, hreplace⟩ := isToken_instructionToken.exists_split hinstruction
  have hrest : (replace (replace composition instructionToken "") queryToken "").toList =
      replaceFrom queryToken.toList [] 0 (cs ++ ds) := by
    have hfirst : (replace composition instructionToken "").toList = cs ++ ds := by
      rw [replace, String.toList_ofList]
      exact hreplace []
    rw [replace, String.toList_ofList, hfirst]
    rfl
  rw [BraceFree, hrest] at hbraces
  rw [countMatches, hsplit, countFrom_around isToken_queryToken isToken_instructionToken rfl]
    at hquery
  have hcases : countFrom queryToken.toList 0 cs = 1 ∧ countFrom queryToken.toList 0 ds = 0 ∨
      countFrom queryToken.toList 0 cs = 0 ∧ countFrom queryToken.toList 0 ds = 1 := by omega
  rcases hcases with ⟨hcs, hds⟩ | ⟨hcs, hds⟩
  · -- the query comes first
    obtain ⟨first, second, rfl, hfirst, hsecond, -⟩ := isToken_queryToken.exists_split hcs
    have hseam : countFrom queryToken.toList 0 (second ++ ds) = 0 := by
      by_contra hne
      obtain ⟨before, left, right, after, rfl, rfl, htoken, hleft, hright⟩ :=
        isToken_queryToken.exists_straddle hsecond hds hne
      refine hspliced ⟨first ++ queryToken.toList ++ before, left, right, after, ?_, htoken, hleft,
        hright⟩
      rw [hsplit]
      simp only [List.append_assoc]
    rw [List.append_assoc, isToken_queryToken.replaceFrom_append_token_append,
      replaceFrom_eq_self hfirst, replaceFrom_eq_self hseam] at hbraces
    obtain ⟨t, ht⟩ := exists_template_of_pieces false hbraces
    refine ⟨t, String.toList_injective ?_⟩
    rw [hsplit, ht]
    simp only [Bool.false_eq_true, if_false, List.append_assoc]
  · -- the instruction comes first
    obtain ⟨first, second, rfl, hfirst, hsecond, -⟩ := isToken_queryToken.exists_split hds
    have hseam : countFrom queryToken.toList 0 (cs ++ first) = 0 := by
      by_contra hne
      obtain ⟨before, left, right, after, rfl, rfl, htoken, hleft, hright⟩ :=
        isToken_queryToken.exists_straddle hcs hfirst hne
      refine hspliced ⟨before, left, right, after ++ queryToken.toList ++ second, ?_, htoken, hleft,
        hright⟩
      rw [hsplit]
      simp only [List.append_assoc]
    rw [List.append_assoc first, ← List.append_assoc cs, ← List.append_assoc (cs ++ first),
      isToken_queryToken.replaceFrom_append_token_append, replaceFrom_eq_self hseam,
      replaceFrom_eq_self hsecond, List.append_assoc] at hbraces
    obtain ⟨t, ht⟩ := exists_template_of_pieces true hbraces
    refine ⟨t, String.toList_injective ?_⟩
    rw [hsplit, ht]
    simp only [if_true, List.append_assoc, List.nil_append]

/-! ### Composing -/

theorem findFrom_append_of_notMem {opening : Char} {token cs ds : List Char}
    (h : IsToken opening token) (hcs : opening ∉ cs) :
    findFrom token (cs ++ ds) = (findFrom token ds).map (· + cs.length) := by
  induction cs with
  | nil => simp
  | cons c cs ih =>
    rw [List.mem_cons, not_or] at hcs
    rw [List.cons_append, findFrom, h.isPrefixOf_cons_of_ne (Ne.symm hcs.1), if_neg (by decide),
      ih hcs.2, Option.map_map, List.length_cons]
    rfl

theorem findFrom_token_append {opening : Char} {token ds : List Char}
    (h : IsToken opening token) : findFrom token (token ++ ds) = some 0 := by
  obtain ⟨body, rfl, -⟩ := h
  have hprefix : (opening :: body).isPrefixOf (opening :: (body ++ ds)) = true :=
    List.isPrefixOf_iff_prefix.mpr (List.prefix_append (opening :: body) ds)
  rw [List.cons_append, findFrom, if_pos hprefix]

/-- A token is not found at the place of another one. -/
theorem findFrom_past {opening : Char} {token other ds : List Char} (h : IsToken opening token)
    (h' : IsToken opening other) (hne : token.isPrefixOf (other ++ ds) = false) :
    findFrom token (other ++ ds) = (findFrom token ds).map (· + other.length) := by
  obtain ⟨body, rfl, hbody⟩ := h'
  rw [List.cons_append] at hne ⊢
  rw [findFrom, hne, if_neg (by decide), findFrom_append_of_notMem h hbody, Option.map_map,
    List.length_cons]
  rfl

/-- The literal pieces around two tokens. -/
theorem pieces_of_append (before first between second after : List Char) :
    let cs := before ++ first ++ (between ++ second ++ after)
    cs.take before.length = before ∧
      slice cs (before.length + first.length) (before.length + first.length + between.length) =
        between ∧
      cs.drop (before.length + first.length + between.length + second.length) = after := by
  intro cs
  refine ⟨?_, ?_, ?_⟩
  · show (before ++ first ++ _).take before.length = before
    rw [List.append_assoc, List.take_left]
  · have hlength : (before ++ first).length = before.length + first.length := List.length_append
    rw [slice, ← hlength, List.take_length_add_append, List.drop_left, List.append_assoc,
      List.take_left]
  · have hlength : (before ++ first).length = before.length + first.length := List.length_append
    have hlength' : (between ++ second).length = between.length + second.length :=
      List.length_append
    rw [Nat.add_assoc, ← hlength, ← hlength', List.drop_length_add_append, List.drop_left]

/-- Two tokens between literals are found where they are. -/
theorem findFrom_two {first second before between after : List Char}
    (hfirst : IsToken '{' first) (hsecond : IsToken '{' second) (hbefore : '{' ∉ before)
    (hbetween : '{' ∉ between)
    (hother : second.isPrefixOf (first ++ (between ++ (second ++ after))) = false) :
    findFrom first (before ++ first ++ (between ++ second ++ after)) = some before.length ∧
      findFrom second (before ++ first ++ (between ++ second ++ after)) =
        some (before.length + first.length + between.length) := by
  simp only [List.append_assoc]
  constructor
  · rw [findFrom_append_of_notMem hfirst hbefore, findFrom_token_append hfirst, Option.map_some,
      Nat.zero_add]
  · rw [findFrom_append_of_notMem hsecond hbefore, findFrom_past hsecond hfirst hother,
      findFrom_append_of_notMem hsecond hbetween, findFrom_token_append hsecond]
    simp only [Option.map_some, Nat.zero_add, Option.some.injEq]
    omega

/-- The placeholders of a template are replaced once each. -/
theorem fillComposition_fill (template : QueryTemplate) (instruction query : String) :
    fillComposition (template.fill instructionToken queryToken) instruction query =
      .ok (template.fill instruction query) := by
  obtain ⟨instructionFirst, before, between, after, hbefore, hbetween, hafter⟩ := template
  have hinstructionLength : instructionToken.length = instructionToken.toList.length := rfl
  have hqueryLength : queryToken.length = queryToken.toList.length := rfl
  cases instructionFirst with
  | true =>
    obtain ⟨hinstruction, hquery⟩ := @findFrom_two _ _ _ _ after.toList
      isToken_instructionToken isToken_queryToken hbefore.1 hbetween.1 rfl
    obtain ⟨htake, hslice, hdrop⟩ := pieces_of_append before.toList instructionToken.toList
      between.toList queryToken.toList after.toList
    have hlt : before.toList.length <
        before.toList.length + instructionToken.toList.length + between.toList.length := by
      have hpos : 0 < instructionToken.toList.length := by decide
      omega
    simp only [fillComposition, QueryTemplate.fill, if_true, String.toList_append, hinstruction,
      hquery, orThrow, ok_bind, if_pos hlt, hinstructionLength, hqueryLength, htake, hslice, hdrop]
    refine congrArg Except.ok (String.toList_injective ?_)
    simp only [String.toList_ofList, String.toList_append, List.append_assoc]
  | false =>
    obtain ⟨hquery, hinstruction⟩ := @findFrom_two _ _ _ _ after.toList
      isToken_queryToken isToken_instructionToken hbefore.1 hbetween.1 rfl
    obtain ⟨htake, hslice, hdrop⟩ := pieces_of_append before.toList queryToken.toList
      between.toList instructionToken.toList after.toList
    have hge : ¬ before.toList.length + queryToken.toList.length + between.toList.length <
        before.toList.length := by omega
    simp only [fillComposition, QueryTemplate.fill, Bool.false_eq_true, if_false,
      String.toList_append, hinstruction, hquery, orThrow, ok_bind, if_neg hge, hinstructionLength,
      hqueryLength, htake, hslice, hdrop]
    refine congrArg Except.ok (String.toList_injective ?_)
    simp only [String.toList_ofList, String.toList_append, List.append_assoc]

/-! ### Main result -/

/-- The checks of a composition. -/
theorem validateQueryComposition_eq_ok {instruction composition : String} {u : Unit} :
    validateQueryComposition instruction composition = .ok u ↔
      (instruction.utf8ByteSize ≤ maxQueryInstructionBytes ∧
        composition.utf8ByteSize ≤ maxQueryCompositionBytes ∧
        countMatches composition queryToken = 1 ∧ countMatches composition instructionToken = 1) ∧
      BraceFree (replace (replace composition instructionToken "") queryToken "") ∧
      ∃ fixed, composition.utf8ByteSize =
          fixed + (instructionToken.utf8ByteSize + queryToken.utf8ByteSize) ∧
        fixed + instruction.utf8ByteSize + maxQueryBytes ≤ maxComposedQueryBytes := by
  simp only [validateQueryComposition, bind_eq_ok, exists_unit, throwIf_eq_ok, orThrow_eq_ok,
    not_or, not_lt, not_not, checkedSub_eq_some]
  constructor
  · rintro ⟨hcontract, hbraces, fixed, ⟨hle, rfl⟩, hfits⟩
    exact ⟨hcontract, hbraces, _, (Nat.sub_add_cancel hle).symm, hfits⟩
  · rintro ⟨hcontract, hbraces, fixed, hsize, hfits⟩
    refine ⟨hcontract, hbraces, fixed, ⟨?_, ?_⟩, hfits⟩
    · exact (Nat.le_add_left _ _).trans_eq hsize.symm
    · exact Nat.sub_eq_of_eq_add hsize

/-- The composition of an accepted profile is checked. -/
theorem composition_checked {profile : EmbeddingProfile} {instruction composition : String}
    (haccepted : validateEmbeddingProfile profile = .ok ())
    (hinstruction : profile.queryInstruction = some instruction)
    (hcomposition : profile.queryComposition = some composition) :
    validateQueryComposition instruction composition = .ok () := by
  simp only [validateEmbeddingProfile, hinstruction, hcomposition, bind_eq_ok, exists_unit,
    forM_eq_ok] at haccepted
  exact haccepted.2.2 (instruction, composition) (List.mem_singleton_self _)

theorem QueryTemplate.utf8ByteSize_fill (template : QueryTemplate) (instruction query : String) :
    (template.fill instruction query).utf8ByteSize =
      template.before.utf8ByteSize + template.between.utf8ByteSize +
        template.after.utf8ByteSize + instruction.utf8ByteSize + query.utf8ByteSize := by
  unfold fill
  split
  all_goals
    simp only [String.utf8ByteSize_append]
    omega

/-- Composing with an accepted template never fails. -/
theorem tryComposeQuery_fill {profile : EmbeddingProfile} {instruction query : String}
    {template : QueryTemplate} (haccepted : validateEmbeddingProfile profile = .ok ())
    (hinstruction : profile.queryInstruction = some instruction)
    (hcomposition : profile.queryComposition = some (template.fill instructionToken queryToken))
    (hquery : query ≠ "") (hsize : query.utf8ByteSize ≤ maxQueryBytes) :
    tryComposeQuery profile query = .ok (template.fill instruction query) ∧
      (template.fill instruction query).utf8ByteSize ≤ maxComposedQueryBytes := by
  obtain ⟨-, -, fixed, hfixed, hfits⟩ := validateQueryComposition_eq_ok.mp
    (composition_checked haccepted hinstruction hcomposition)
  -- the literals take what the check calls fixed
  have hbound : (template.fill instruction query).utf8ByteSize ≤ maxComposedQueryBytes := by
    rw [template.utf8ByteSize_fill] at hfixed ⊢
    omega
  refine ⟨?_, hbound⟩
  have hlength : ¬ (query = "" ∨ maxQueryBytes < query.utf8ByteSize) := by
    push Not
    exact ⟨hquery, hsize⟩
  rw [tryComposeQuery, haccepted, ok_bind, throwIf_bind_of_not hlength, hinstruction, hcomposition]
  show (fillComposition _ _ _ >>= _) = _
  rw [fillComposition_fill, ok_bind, throwIf_bind_of_not (not_lt.mpr hbound)]
  rfl

/-- The placeholders of a template are counted once each, and the literals remain. -/
theorem QueryTemplate.checked (template : QueryTemplate) :
    countMatches (template.fill instructionToken queryToken) queryToken = 1 ∧
      countMatches (template.fill instructionToken queryToken) instructionToken = 1 ∧
      replace (replace (template.fill instructionToken queryToken) instructionToken "")
        queryToken "" = template.before ++ template.between ++ template.after := by
  obtain ⟨instructionFirst, before, between, after, hbefore, hbetween, hafter⟩ := template
  have hI := isToken_instructionToken
  have hQ := isToken_queryToken
  -- neither placeholder occurs in a literal
  have hnone : ∀ {token : List Char} {s : String}, IsToken '{' token → BraceFree s →
      countFrom token 0 s.toList = 0 := fun htoken hs => htoken.countFrom_eq_zero hs.1
  have hempty : ("" : String).toList = [] := rfl
  -- nor across two of them
  have hjoined : ∀ {token : List Char} {s t : String}, IsToken '{' token → BraceFree s →
      BraceFree t → countFrom token 0 (s.toList ++ t.toList) = 0 := by
    intro token s t htoken hs ht
    rw [htoken.countFrom_of_notMem hs.1, hnone htoken ht]
  cases instructionFirst with
  | true =>
    have hrest : countFrom instructionToken.toList 0
        (between.toList ++ queryToken.toList ++ after.toList) = 0 := by
      rw [countFrom_around hI hQ rfl, hnone hI hbetween, hnone hI hafter]
    simp only [countMatches, replace, QueryTemplate.fill, if_true, String.toList_append,
      String.toList_ofList, hempty]
    refine ⟨?_, ?_, String.toList_injective ?_⟩
    · rw [countFrom_around hQ hI rfl, hnone hQ hbefore, hQ.countFrom_append_token_append,
        hnone hQ hbetween, hnone hQ hafter]
    · rw [hI.countFrom_append_token_append, hnone hI hbefore, hrest]
    · rw [hI.replaceFrom_append_token_append, replaceFrom_eq_self (hnone hI hbefore),
        replaceFrom_eq_self hrest, List.nil_append, List.append_assoc between.toList,
        ← List.append_assoc, ← List.append_assoc, hQ.replaceFrom_append_token_append,
        replaceFrom_eq_self (hjoined hQ hbefore hbetween), replaceFrom_eq_self (hnone hQ hafter)]
      simp only [String.toList_ofList, String.toList_append, List.nil_append]
  | false =>
    have hrest : countFrom instructionToken.toList 0
        (before.toList ++ queryToken.toList ++ between.toList) = 0 := by
      rw [countFrom_around hI hQ rfl, hnone hI hbefore, hnone hI hbetween]
    simp only [countMatches, replace, QueryTemplate.fill, Bool.false_eq_true, if_false,
      String.toList_append, String.toList_ofList, hempty]
    refine ⟨?_, ?_, String.toList_injective ?_⟩
    · rw [hQ.countFrom_append_token_append, hnone hQ hbefore, countFrom_around hQ hI rfl,
        hnone hQ hbetween, hnone hQ hafter]
    · rw [countFrom_around hI hQ rfl, hnone hI hbefore, hI.countFrom_append_token_append,
        hnone hI hbetween, hnone hI hafter]
    · rw [List.append_assoc between.toList, ← List.append_assoc (before.toList ++ _),
        ← List.append_assoc (before.toList ++ _ ++ _), hI.replaceFrom_append_token_append,
        replaceFrom_eq_self hrest, replaceFrom_eq_self (hnone hI hafter), List.nil_append,
        List.append_assoc, hQ.replaceFrom_append_token_append,
        replaceFrom_eq_self (hnone hQ hbefore),
        replaceFrom_eq_self (hjoined hQ hbetween hafter), List.nil_append]
      simp only [String.toList_ofList, String.toList_append, List.append_assoc]

/-- A template within the limits passes the check. -/
theorem validateQueryComposition_fill {template : QueryTemplate} {instruction : String}
    (hinstruction : instruction.utf8ByteSize ≤ maxQueryInstructionBytes)
    (hcomposition : (template.fill instructionToken queryToken).utf8ByteSize ≤
      maxQueryCompositionBytes)
    (hfits : (template.fill instruction "").utf8ByteSize + maxQueryBytes ≤
      maxComposedQueryBytes) :
    validateQueryComposition instruction (template.fill instructionToken queryToken) = .ok () := by
  obtain ⟨hquery, htoken, hremaining⟩ := template.checked
  refine validateQueryComposition_eq_ok.mpr ⟨⟨hinstruction, hcomposition, hquery, htoken⟩, ?_, ?_⟩
  · rw [hremaining, BraceFree]
    simp only [String.toList_append, List.mem_append, not_or]
    exact ⟨⟨⟨template.before_closed.1, template.between_closed.1⟩, template.after_closed.1⟩,
      ⟨template.before_closed.2, template.between_closed.2⟩, template.after_closed.2⟩
  · refine ⟨template.before.utf8ByteSize + template.between.utf8ByteSize +
      template.after.utf8ByteSize, ?_, ?_⟩
    · rw [template.utf8ByteSize_fill, Nat.add_assoc]
    · rw [template.utf8ByteSize_fill] at hfits
      exact hfits

/-- **Accepted compositions are closed, unless they are spliced**, and composing with a closed
one never fails. Every template within the limits is accepted. -/
theorem composition_closed_iff {profile : EmbeddingProfile} {instruction composition : String}
    (haccepted : validateEmbeddingProfile profile = .ok ())
    (hinstruction : profile.queryInstruction = some instruction)
    (hcomposition : profile.queryComposition = some composition) :
    ((∃ template : QueryTemplate,
      composition = template.fill "\x7bquery_instruction\x7d" "\x7bquery\x7d" ∧
        ∀ query, query ≠ "" → query.utf8ByteSize ≤ 8192 →
          tryComposeQuery profile query = .ok (template.fill instruction query) ∧
            (template.fill instruction query).utf8ByteSize ≤ 16384) ↔
      ¬ Spliced composition) ∧
    ∀ (template : QueryTemplate) (text : String), text.utf8ByteSize ≤ 8192 →
      (template.fill "\x7bquery_instruction\x7d" "\x7bquery\x7d").utf8ByteSize ≤ 1024 →
      (template.fill text "").utf8ByteSize + 8192 ≤ 16384 →
      validateQueryComposition text
        (template.fill "\x7bquery_instruction\x7d" "\x7bquery\x7d") = .ok () := by
  refine ⟨⟨?_, fun hspliced => ?_⟩, fun template text htext hsize hfits =>
    validateQueryComposition_fill htext hsize hfits⟩
  · rintro ⟨template, rfl, -⟩
    exact template.not_spliced
  · obtain ⟨⟨-, -, hqueryOnce, hinstructionOnce⟩, hbraces, -⟩ := validateQueryComposition_eq_ok.mp
      (composition_checked haccepted hinstruction hcomposition)
    obtain ⟨template, rfl⟩ := exists_queryTemplate hqueryOnce hinstructionOnce hbraces hspliced
    exact ⟨template, rfl, fun query hquery hsize =>
      tryComposeQuery_fill haccepted hinstruction hcomposition hquery hsize⟩

/-- A profile with an instruction. -/
def composedProfile (composition : String) : EmbeddingProfile where
  id := "profile"
  version := "1"
  sha256 := String.ofList (List.replicate 64 '0')
  model := "model"
  dimensions := 4
  normalization := "none"
  vectorDerivation := none
  queryInstruction := some "find"
  queryComposition := some composition

/-- The instruction, then the query. -/
def plainTemplate : QueryTemplate where
  instructionFirst := true
  before := ""
  between := ": "
  after := ""
  before_closed := by decide
  between_closed := by decide
  after_closed := by decide

/-- Taking the instruction's placeholder out leaves two for the query. -/
def splicedComposition : String := "\x7bqu\x7bquery_instruction\x7dery\x7d\x7bquery\x7d"

theorem plain_accepted : validateEmbeddingProfile
    (composedProfile (plainTemplate.fill instructionToken queryToken)) = .ok () := by
  decide +kernel

theorem spliced_accepted :
    validateEmbeddingProfile (composedProfile splicedComposition) = .ok () := by
  decide +kernel

theorem splicedComposition_spliced : Spliced splicedComposition := by
  refine ⟨[], ['{', 'q', 'u'], ['e', 'r', 'y', '}'], queryToken.toList, ?_, ?_, ?_, ?_⟩
  · decide
  · decide
  · decide
  · decide

/-- The plain composition is closed, and composes. -/
theorem plain_composition_closed : ∃ template : QueryTemplate,
    plainTemplate.fill instructionToken queryToken =
      template.fill "\x7bquery_instruction\x7d" "\x7bquery\x7d" ∧
    tryComposeQuery (composedProfile (plainTemplate.fill instructionToken queryToken)) "text" =
      .ok (template.fill "find" "text") := by
  obtain ⟨⟨-, hclosed⟩, -⟩ := composition_closed_iff plain_accepted rfl rfl
  obtain ⟨template, htemplate, hcompose⟩ := hclosed plainTemplate.not_spliced
  exact ⟨template, htemplate, (hcompose "text" (by decide) (by decide)).1⟩

/-- A composition is accepted that is no closed template. -/
theorem open_composition_accepted :
    validateEmbeddingProfile (composedProfile splicedComposition) = .ok () ∧
      ¬ ∃ template : QueryTemplate,
        splicedComposition = template.fill "\x7bquery_instruction\x7d" "\x7bquery\x7d" := by
  refine ⟨spliced_accepted, ?_⟩
  rintro ⟨template, htemplate⟩
  have hnot := template.not_spliced
  rw [instructionToken, queryToken, ← htemplate] at hnot
  exact hnot splicedComposition_spliced

end LivefireRag.Embedding
