import LivefireRag.Lib.Framing
import LivefireRag.Lib.JsonAccess
import LivefireRag.Lib.Text

/-!
# Pointers into JSON values

A position in a value is a list of steps, a key or an index each (`follow`). Its pointer
is the text of the steps, each after a slash, with `~` and `/` escaped in them. Resolving
a text as a pointer finds exactly the positions whose pointer it is (`resolve_eq_some`),
and two positions of one value never share a pointer (`eq_of_pointerText`).
-/

namespace Json

/-! ### Steps -/

inductive Step where
  | key (k : String)
  | index (i : ℕ)
  deriving DecidableEq

/-- The text of a step, before it is escaped. -/
def Step.token : Step → String
  | .key k => k
  | .index i => toString i

def child? : Step → Json → Option Json
  | .key k, .object members => field? members k
  | .index i, .array elements => elements[i]?
  | _, _ => none

/-- The value at a position. -/
def follow : List Step → Json → Option Json
  | [], value => some value
  | step :: path, value => (child? step value).bind (follow path)

@[simp] theorem follow_nil (value : Json) : follow [] value = some value := rfl

theorem follow_cons (step : Step) (path : List Step) (value : Json) :
    follow (step :: path) value = (child? step value).bind (follow path) := rfl

/-! ### Escaping -/

def escapeChar (c : Char) : List Char :=
  if c = '~' then ['~', '0'] else if c = '/' then ['~', '1'] else [c]

def escape (cs : List Char) : List Char := cs.flatMap escapeChar

/-- A token read back; a tilde stands only before a zero or a one. -/
def unescape : List Char → Option (List Char)
  | [] => some []
  | '~' :: '0' :: cs => (unescape cs).map ('~' :: ·)
  | '~' :: '1' :: cs => (unescape cs).map ('/' :: ·)
  | '~' :: _ => none
  | c :: cs => (unescape cs).map (c :: ·)

theorem unescape_cons {c : Char} (h : c ≠ '~') (cs : List Char) :
    unescape (c :: cs) = (unescape cs).map (c :: ·) := by
  conv_lhs => unfold unescape
  split <;> simp_all

theorem slash_notMem_escape (cs : List Char) : '/' ∉ escape cs := by
  intro h
  obtain ⟨c, -, hc⟩ := List.mem_flatMap.mp h
  unfold escapeChar at hc
  split at hc
  · simp at hc
  · split at hc
    · simp at hc
    · next hne => exact hne (List.mem_singleton.mp hc).symm

/-- **Escaping is undone.** -/
theorem unescape_escape (cs : List Char) : unescape (escape cs) = some cs := by
  induction cs with
  | nil => rfl
  | cons c cs ih =>
    by_cases htilde : c = '~'
    · subst htilde
      show unescape ('~' :: '0' :: escape cs) = _
      rw [unescape, ih, Option.map_some]
    · by_cases hslash : c = '/'
      · subst hslash
        show unescape ('~' :: '1' :: escape cs) = _
        rw [unescape, ih, Option.map_some]
      · have hchar : escapeChar c = [c] := by rw [escapeChar, if_neg htilde, if_neg hslash]
        rw [escape, List.flatMap_cons, hchar, List.singleton_append, unescape_cons htilde,
          ← escape, ih, Option.map_some]

/-- A token without a slash is the escaped form of what it is read as. -/
theorem escape_of_unescape {cs token : List Char} (h : unescape cs = some token)
    (hslash : '/' ∉ cs) : escape token = cs := by
  induction cs using unescape.induct generalizing token with
  | case1 =>
    obtain rfl := Option.some.inj h
    rfl
  | case2 cs ih =>
    rw [unescape] at h
    obtain ⟨rest, hrest, rfl⟩ := Option.map_eq_some_iff.mp h
    show '~' :: '0' :: escape rest = _
    rw [ih hrest fun hmem => hslash (by simp [hmem])]
  | case3 cs ih =>
    rw [unescape] at h
    obtain ⟨rest, hrest, rfl⟩ := Option.map_eq_some_iff.mp h
    show '~' :: '1' :: escape rest = _
    rw [ih hrest fun hmem => hslash (by simp [hmem])]
  | case4 cs h0 h1 => simp_all [unescape]
  | case5 c cs h0 h1 h2 ih =>
    have htilde : c ≠ '~' := h2
    rw [unescape_cons htilde] at h
    obtain ⟨rest, hrest, rfl⟩ := Option.map_eq_some_iff.mp h
    have hc : c ≠ '/' := fun heq => hslash (heq ▸ List.mem_cons_self ..)
    have hchar : escapeChar c = [c] := by rw [escapeChar, if_neg htilde, if_neg hc]
    rw [escape, List.flatMap_cons, hchar, List.singleton_append, ← escape,
      ih hrest fun hmem => hslash (List.mem_cons_of_mem _ hmem)]

/-! ### Indices -/

/-- A decimal starts with a zero only when it is zero. -/
theorem head?_toDigits {i : ℕ} (h : 0 < i) : (Nat.toDigits 10 i).head? ≠ some '0' := by
  induction i using Nat.strong_induction_on with
  | _ i ih =>
    by_cases hsmall : i < 10
    · have hall : ∀ n < 10, 0 < n → some n.digitChar ≠ some '0' := by decide
      rw [Nat.toDigits_of_lt_base hsmall, List.head?_singleton]
      exact hall i hsmall h
    · rw [Nat.toDigits_of_base_le (by decide) (not_lt.mp hsmall),
        List.head?_append_of_ne_nil _ Nat.toDigits_ne_nil]
      exact ih (i / 10) (Nat.div_lt_self h (by decide)) (by omega)

/-- **A decimal is read as the number it is of.** -/
theorem parseIndex_toDigits (i : ℕ) : parseIndex (Nat.toDigits 10 i) = some i := by
  have hdigits : (Nat.toDigits 10 i).all Char.isDigit = true := List.all_eq_true.mpr fun c hc =>
    Nat.isDigit_of_mem_toDigits (by decide) (by decide) hc
  have hvalue : (Nat.toDigits 10 i).foldl (fun n c => 10 * n + (c.toNat - '0'.toNat)) 0 = i :=
    Nat.ofDigitChars_ten_toDigits
  rw [parseIndex, if_neg, hvalue]
  rintro (hnil | hall | ⟨hzero, hne⟩)
  · exact Nat.toDigits_ne_nil hnil
  · exact hall hdigits
  · rcases Nat.eq_zero_or_pos i with rfl | hpos
    · exact hne rfl
    · exact head?_toDigits hpos hzero

/-- Digits without a leading zero are the decimal of their number. -/
theorem toDigits_ofDigitChars {cs : List Char} (hdigits : ∀ c ∈ cs, c.isDigit) (hne : cs ≠ [])
    (hlead : cs.head? ≠ some '0') :
    0 < Nat.ofDigitChars 10 cs 0 ∧ Nat.toDigits 10 (Nat.ofDigitChars 10 cs 0) = cs := by
  have hdigit : ∀ c : Char, c.isDigit → ∃ n < 10, c = n.digitChar := by
    intro c hc
    simp only [Char.isDigit, ge_iff_le, Bool.and_eq_true, decide_eq_true_iff] at hc
    have hrange : 48 ≤ c.toNat ∧ c.toNat ≤ 57 := hc
    have hall : ∀ n < 58, 48 ≤ n → ∃ k < 10, Char.ofNat n = k.digitChar := by decide
    obtain ⟨k, hk, heq⟩ := hall c.toNat (by omega) hrange.1
    exact ⟨k, hk, by rw [← heq, Char.ofNat_toNat]⟩
  induction cs using List.reverseRecOn with
  | nil => exact absurd rfl hne
  | append_singleton cs c ih =>
    obtain ⟨n, hn, rfl⟩ := hdigit c (hdigits c (by simp))
    have hlast : Nat.ofDigitChars 10 (cs ++ [n.digitChar]) 0 = 10 * Nat.ofDigitChars 10 cs 0 + n := by
      rw [Nat.ofDigitChars_append, Nat.ofDigitChars_cons_digitChar_of_lt_ten hn,
        Nat.ofDigitChars_nil]
    rw [hlast]
    by_cases hcs : cs = []
    · subst hcs
      have hzero : n ≠ 0 := by
        rintro rfl
        exact hlead rfl
      rw [Nat.ofDigitChars_nil, Nat.mul_zero, Nat.zero_add, Nat.toDigits_of_lt_base hn]
      exact ⟨Nat.pos_of_ne_zero hzero, rfl⟩
    · obtain ⟨hpos, heq⟩ := ih (fun c hc => hdigits c (List.mem_append_left _ hc)) hcs (by
        rwa [List.head?_append_of_ne_nil _ hcs] at hlead)
      refine ⟨by omega, ?_⟩
      rw [← Nat.toDigits_append_toDigits (by decide) hpos hn, heq, Nat.toDigits_of_lt_base hn]

theorem eq_toDigits_of_parseIndex {cs : List Char} {i : ℕ} (h : parseIndex cs = some i) :
    cs = Nat.toDigits 10 i := by
  unfold parseIndex at h
  split at h
  · cases h
  · next hok =>
    obtain ⟨hne, hdigits, hzero⟩ := not_or.mp hok |>.imp_right not_or.mp
    obtain rfl := Option.some.inj h
    by_cases hlead : cs.head? = some '0'
    · have heq : cs = ['0'] := by
        by_contra hcs
        exact hzero ⟨hlead, hcs⟩
      subst heq
      rfl
    · have hall : ∀ c ∈ cs, c.isDigit := List.all_eq_true.mp (not_not.mp hdigits)
      exact (toDigits_ofDigitChars hall hne hlead).2.symm

theorem eq_of_toString {i j : ℕ} (h : toString i = toString j) : i = j := by
  have hdigits : Nat.toDigits 10 i = Nat.toDigits 10 j := by
    rw [← Nat.toList_repr, ← Nat.toList_repr]
    exact congrArg String.toList h
  have hread := congrArg parseIndex hdigits
  rw [parseIndex_toDigits, parseIndex_toDigits] at hread
  exact Option.some.inj hread

/-! ### Pointers -/

/-- The pointer of a position. -/
def pointerText (path : List Step) : String :=
  String.ofList (path.flatMap fun step => '/' :: escape step.token.toList)

/-- The tokens of a pointer. -/
def pointerTokens (text : String) : Option (List String) :=
  match text.toList with
  | [] => some []
  | '/' :: rest => ((rest.splitOn '/').mapM unescape).map fun tokens => tokens.map String.ofList
  | _ => none

/-- The value a pointer refers to. -/
def resolve (text : String) (root : Json) : Option Json :=
  (pointerTokens text).bind fun tokens => pointer tokens root

theorem cons_intercalate_escape (cs : List Char) (others : List (List Char)) :
    '/' :: ['/'].intercalate (escape cs :: others.map escape) =
      (cs :: others).flatMap fun cs => '/' :: escape cs := by
  induction others generalizing cs with
  | nil => simp
  | cons other others ih =>
    rw [List.map_cons, List.intercalate_cons_cons, List.flatMap_cons, ← ih other]
    simp

theorem toList_pointerText_cons (step : Step) (path : List Step) :
    (pointerText (step :: path)).toList =
      '/' :: ['/'].intercalate ((step :: path).map fun step => escape step.token.toList) := by
  have hjoin := cons_intercalate_escape step.token.toList (path.map fun step => step.token.toList)
  rw [List.map_map] at hjoin
  rw [pointerText, String.toList_ofList, List.map_cons]
  refine Eq.trans ?_ hjoin.symm
  rw [List.flatMap_cons, List.flatMap_cons, List.flatMap_map]

theorem mapM_unescape_escape (path : List Step) :
    (path.map fun step => escape step.token.toList).mapM unescape =
      some (path.map fun step => step.token.toList) := by
  induction path with
  | nil => rfl
  | cons step path ih => simp [unescape_escape, ih]

/-- Pieces without a slash are escaped back to themselves. -/
theorem map_escape_of_mapM {pieces read : List (List Char)} (h : pieces.mapM unescape = some read)
    (hslash : ∀ piece ∈ pieces, '/' ∉ piece) : read.map escape = pieces := by
  induction pieces generalizing read with
  | nil =>
    obtain rfl : [] = read := by simpa using h
    rfl
  | cons piece pieces ih =>
    rw [List.mapM_cons] at h
    obtain ⟨token, htoken, h⟩ := Option.bind_eq_some_iff.mp h
    obtain ⟨tokens, htokens, h⟩ := Option.bind_eq_some_iff.mp h
    obtain rfl := Option.some.inj h
    obtain ⟨hpiece, hpieces⟩ := List.forall_mem_cons.mp hslash
    rw [List.map_cons, escape_of_unescape htoken hpiece, ih htokens hpieces]

/-- The tokens of a position's pointer are those of its steps. -/
theorem pointerTokens_pointerText (path : List Step) :
    pointerTokens (pointerText path) = some (path.map Step.token) := by
  cases path with
  | nil => rfl
  | cons step path =>
    have hpieces : ∀ piece ∈ (step :: path).map fun step => escape step.token.toList,
        '/' ∉ piece := by
      intro piece hpiece
      obtain ⟨step, -, rfl⟩ := List.mem_map.mp hpiece
      exact slash_notMem_escape _
    have hsplit := List.splitOn_intercalate '/' hpieces (by simp)
    rw [pointerTokens, toList_pointerText_cons]
    simp only [hsplit, mapM_unescape_escape]
    simp [Function.comp_def]

/-- A text with tokens is the pointer that escapes them. -/
theorem toList_of_pointerTokens {text : String} {tokens : List String}
    (h : pointerTokens text = some tokens) :
    text.toList = tokens.flatMap fun token => '/' :: escape token.toList := by
  unfold pointerTokens at h
  split at h
  · next hnil =>
    obtain rfl := Option.some.inj h
    rw [hnil]
    rfl
  · next rest hcons =>
    obtain ⟨read, hread, rfl⟩ := Option.map_eq_some_iff.mp h
    have hescape := map_escape_of_mapM hread fun piece hpiece => Framing.notMem_of_mem_splitOn hpiece
    have hpieces : read ≠ [] := by
      rintro rfl
      exact List.splitOn_ne_nil '/' rest hescape.symm
    obtain ⟨token, others, rfl⟩ := List.exists_cons_of_ne_nil hpieces
    have hrest : ['/'].intercalate (rest.splitOn '/') = rest := List.intercalate_splitOn '/'
    rw [hcons, ← hrest, ← hescape, List.map_cons, cons_intercalate_escape]
    simp [List.flatMap_map]
  · cases h

/-! ### Resolving -/

/-- Walking by tokens is following the steps they are the tokens of. -/
theorem pointer_eq_some {tokens : List String} {value x : Json} :
    pointer tokens value = some x ↔ ∃ path, path.map Step.token = tokens ∧
      follow path value = some x := by
  induction tokens generalizing value with
  | nil =>
    constructor
    · exact fun h => ⟨[], rfl, h⟩
    · rintro ⟨path, hpath, h⟩
      obtain rfl := List.map_eq_nil_iff.mp hpath
      exact h
  | cons token tokens ih =>
    constructor
    · intro h
      cases value with
      | object members =>
        obtain ⟨child, hchild, h⟩ := Option.bind_eq_some_iff.mp h
        obtain ⟨path, rfl, hpath⟩ := ih.mp h
        exact ⟨.key token :: path, rfl, Option.bind_eq_some_iff.mpr ⟨child, hchild, hpath⟩⟩
      | array elements =>
        obtain ⟨i, hi, h⟩ := Option.bind_eq_some_iff.mp h
        obtain ⟨child, hchild, h⟩ := Option.bind_eq_some_iff.mp h
        obtain ⟨path, rfl, hpath⟩ := ih.mp h
        have htoken : Step.token (.index i) = token := by
          apply String.toList_injective
          rw [eq_toDigits_of_parseIndex hi]
          exact Nat.toList_repr
        exact ⟨.index i :: path, by rw [List.map_cons, htoken],
          Option.bind_eq_some_iff.mpr ⟨child, hchild, hpath⟩⟩
      | _ => cases h
    · rintro ⟨path, hpath, h⟩
      obtain ⟨step, path, rfl, htoken, rfl⟩ := List.map_eq_cons_iff.mp hpath
      obtain ⟨child, hchild, h⟩ := Option.bind_eq_some_iff.mp h
      have hrest : pointer (path.map Step.token) child = some x := ih.mpr ⟨path, rfl, h⟩
      cases step with
      | key k =>
        obtain rfl : k = token := htoken
        cases value with
        | object members => exact Option.bind_eq_some_iff.mpr ⟨child, hchild, hrest⟩
        | _ => cases hchild
      | index i =>
        have htoken : token.toList = Nat.toDigits 10 i := by
          rw [← htoken]
          exact Nat.toList_repr
        cases value with
        | array elements =>
          refine Option.bind_eq_some_iff.mpr ⟨i, ?_, Option.bind_eq_some_iff.mpr
            ⟨child, hchild, hrest⟩⟩
          rw [htoken, parseIndex_toDigits]
        | _ => cases hchild

/-- **A text resolves to what stands at a position it is the pointer of.** -/
theorem resolve_eq_some {text : String} {root x : Json} :
    resolve text root = some x ↔ ∃ path, pointerText path = text ∧ follow path root = some x := by
  constructor
  · intro h
    obtain ⟨tokens, htokens, h⟩ := Option.bind_eq_some_iff.mp h
    obtain ⟨path, rfl, hpath⟩ := pointer_eq_some.mp h
    refine ⟨path, String.toList_injective ?_, hpath⟩
    rw [toList_of_pointerTokens htokens, pointerText, String.toList_ofList, List.flatMap_map]
  · rintro ⟨path, rfl, h⟩
    exact Option.bind_eq_some_iff.mpr
      ⟨_, pointerTokens_pointerText path, pointer_eq_some.mpr ⟨path, rfl, h⟩⟩

/-- Positions of one value with the same tokens are the same. -/
theorem eq_of_map_token {root x y : Json} {p q : List Step} (hp : follow p root = some x)
    (hq : follow q root = some y) (h : p.map Step.token = q.map Step.token) : p = q := by
  induction p generalizing q root with
  | nil => exact (List.map_eq_nil_iff.mp h.symm).symm
  | cons s p ih =>
    obtain ⟨t, q, rfl, htoken, hrest⟩ := List.map_eq_cons_iff.mp h.symm
    obtain ⟨child, hchild, hp⟩ := Option.bind_eq_some_iff.mp hp
    obtain ⟨child', hchild', hq⟩ := Option.bind_eq_some_iff.mp hq
    -- the value decides whether a step is a key or an index
    have hstep : s = t := by
      cases root with
      | object members =>
        cases s <;> cases t <;> first | cases hchild | cases hchild' | skip
        exact congrArg Step.key htoken.symm
      | array elements =>
        cases s <;> cases t <;> first | cases hchild | cases hchild' | skip
        exact congrArg Step.index (eq_of_toString htoken.symm)
      | _ => cases s <;> cases hchild
    subst hstep
    obtain rfl := Option.some.inj (hchild.symm.trans hchild')
    rw [ih hp hq hrest.symm]

/-- **Two positions of a value do not share a pointer.** -/
theorem eq_of_pointerText {root x y : Json} {p q : List Step} (hp : follow p root = some x)
    (hq : follow q root = some y) (h : pointerText p = pointerText q) : p = q := by
  have htokens := congrArg pointerTokens h
  rw [pointerTokens_pointerText, pointerTokens_pointerText] at htokens
  exact eq_of_map_token hp hq (Option.some.inj htokens)

end Json
