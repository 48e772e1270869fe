import LivefireRag.Lib.Redaction
import LivefireRag.Projection.FieldNames

/-!
# In-band redaction

Identifiers that stand inside of texts are replaced before the texts are embedded
(`replaceInBandIdentifiers`). The published patterns look around: an identifier counts when
no forbidden character stands beside it. The code has patterns without this and looks at the
neighbours of what they match (`replaceWithBoundaries`), so it keeps what begins inside of a
match that is rejected: `a00:11:22:33:44:55:66` has a MAC address behind its first three
characters, and an e-mail address can begin behind the `@` of another.

For each of the six patterns the result is that of the published pattern, and has no
identifier left, exactly when nothing is hidden so and nothing matches directly behind a
replacement (`replaceWithBoundaries_complete_iff`). For web tokens and long hexadecimal
numbers this is every text (`jwt_complete`, `longHex_complete`).

The engine of the regular expressions belongs to a library. `TextEngine.Laws` says what it
finds for the six, and what is used of its classes `\w` and `\d`.
-/

namespace LivefireRag.Projection

open Pattern Redaction BoundedPattern

/-! ### Regular expressions -/

def wordCharRe : String := "^\\w$"

def emailRe : String := "(?i)[\\w.+-]+@[A-Za-z0-9.-]+\\.[A-Za-z]\x7b2,\x7d"

def ipv4Re : String :=
  "(?:25[0-5]|2[0-4]\\d|1?\\d?\\d)(?:\\.(?:25[0-5]|2[0-4]\\d|1?\\d?\\d))\x7b3\x7d"

def uuidRe : String :=
  "(?i)[0-9a-f]\x7b8\x7d-[0-9a-f]\x7b4\x7d-[1-5][0-9a-f]\x7b3\x7d-[89ab][0-9a-f]\x7b3\x7d-" ++
    "[0-9a-f]\x7b12\x7d"

def longHexRe : String := "(?i)[0-9a-f]\x7b32,\x7d"

def macRe : String := "(?i)(?:[0-9a-f]\x7b2\x7d[:-])\x7b5\x7d[0-9a-f]\x7b2\x7d"

/-! ### Classes of characters -/

def among (characters : List Char) (value : Char) : Bool := characters.contains value

def between (first last : Char) (value : Char) : Bool := first ≤ value && value ≤ last

/-- The two letters outside of ASCII that are equal to one of it where case is ignored. -/
def foldsToAscii (value : Char) : Bool := among ['\u017f', '\u212a'] value

theorem among_iff {characters : List Char} {value : Char} :
    among characters value ↔ value ∈ characters := List.contains_iff_mem

theorem among_singleton_iff {c value : Char} : among [c] value ↔ value = c :=
  among_iff.trans List.mem_singleton

theorem isAlphanum_of_between {c : Char} (h : between '0' '5' c) : c.isAlphanum := by
  obtain ⟨hfirst, hlast⟩ := Bool.and_eq_true_iff.mp h
  have hlower : '0' ≤ c := of_decide_eq_true hfirst
  have hupper : c ≤ '9' := Char.le_trans (of_decide_eq_true hlast) (by decide)
  refine Bool.or_eq_true_iff.mpr (.inr ?_)
  exact Bool.and_eq_true_iff.mpr ⟨decide_eq_true hlower, decide_eq_true hupper⟩

section Engine

variable (engine : TextEngine) (isWord isDigit : Char → Bool)

def isRegexWord (value : Char) : Bool := engine.isMatch wordCharRe (String.singleton value)

def emailLeftForbidden (value : Char) : Bool :=
  isRegexWord engine value || among ['.', '+', '-'] value

def emailRightForbidden (value : Char) : Bool :=
  isRegexWord engine value || among ['.', '-'] value

def wordOrDot (value : Char) : Bool := isRegexWord engine value || value == '.'

def asciiHex (value : Char) : Bool :=
  between '0' '9' value || between 'a' 'f' value || between 'A' 'F' value

/-! ### What the expressions match -/

/-- `[a-z]` where case is ignored. -/
def letterAnyCase (value : Char) : Bool := value.isAlpha || foldsToAscii value

def emailPattern : Pattern Char :=
  .seq (atLeast 1 fun value => isWord value || among ['.', '+', '-'] value) <|
  .seq (one (among ['@'])) <|
  .seq (atLeast 1 fun value => letterAnyCase value || value.isDigit || among ['.', '-'] value) <|
  .seq (one (among ['.'])) <|
  atLeast 2 letterAnyCase

/-- `25[0-5]|2[0-4]\d|1?\d?\d` -/
def octet : Pattern Char :=
  .alt (.seq (one (among ['2'])) <| .seq (one (among ['5'])) <| one (between '0' '5')) <|
  .alt (.seq (one (among ['2'])) <| .seq (one (between '0' '4')) <| one isDigit) <|
  .seq (optional (one (among ['1']))) <| .seq (optional (one isDigit)) <| one isDigit

def ipv4Pattern : Pattern Char :=
  .seq (octet isDigit) <| (Pattern.seq (one (among ['.'])) (octet isDigit)).times 3

def uuidPattern : Pattern Char :=
  .seq ((one asciiHex).times 8) <| .seq (one (among ['-'])) <|
  .seq ((one asciiHex).times 4) <| .seq (one (among ['-'])) <|
  .seq (one (between '1' '5')) <| .seq ((one asciiHex).times 3) <| .seq (one (among ['-'])) <|
  .seq (one (among ['8', '9', 'a', 'b', 'A', 'B'])) <| .seq ((one asciiHex).times 3) <|
  .seq (one (among ['-'])) <|
  (one asciiHex).times 12

def longHexPattern : Pattern Char := atLeast 32 asciiHex

def jwtPattern : Pattern Char :=
  .seq (atLeast 8 (decide <| jwtCharacter ·)) <| .seq (one (among ['.'])) <|
  .seq (atLeast 8 (decide <| jwtCharacter ·)) <| .seq (one (among ['.'])) <|
  atLeast 8 (decide <| jwtCharacter ·)

def macPattern : Pattern Char :=
  .seq ((Pattern.seq ((one asciiHex).times 2) (one (among [':', '-']))).times 5) <|
  (one asciiHex).times 2

/-- A regular expression with what it matches, the characters that are forbidden beside a
match, and the replacement. The published expression is `(?<!L)P(?!R)`. -/
structure InBandPattern where
  regex : String
  bounded : BoundedPattern Char
  replacement : String

def jwtInBand : InBandPattern where
  regex := jwtRe
  bounded := ⟨jwtPattern, (decide <| jwtCharacter ·), (decide <| jwtCharacter ·)⟩
  replacement := "<redacted:jwt>"

def macInBand : InBandPattern where
  regex := macRe
  bounded := ⟨macPattern, asciiHex, asciiHex⟩
  replacement := "<redacted:mac-address>"

def emailInBand : InBandPattern where
  regex := emailRe
  bounded := ⟨emailPattern (isRegexWord engine), emailLeftForbidden engine,
    emailRightForbidden engine⟩
  replacement := "<redacted:email-address>"

def ipv4InBand : InBandPattern where
  regex := ipv4Re
  bounded := ⟨ipv4Pattern isDigit, wordOrDot engine, wordOrDot engine⟩
  replacement := "<redacted:ip-address>"

def uuidInBand : InBandPattern where
  regex := uuidRe
  bounded := ⟨uuidPattern, asciiHex, asciiHex⟩
  replacement := "<redacted:uuid>"

def longHexInBand : InBandPattern where
  regex := longHexRe
  bounded := ⟨longHexPattern, asciiHex, asciiHex⟩
  replacement := "<redacted:long-identifier>"

/-- The patterns in the order in which they are applied. -/
def inBandPatterns : List InBandPattern :=
  [jwtInBand, macInBand, emailInBand engine, ipv4InBand engine isDigit, uuidInBand,
    longHexInBand]

/-- What is used of the engine: the matches of the six expressions, and its classes. -/
structure TextEngine.Laws : Prop where
  findIter_inBand : ∀ entry ∈ inBandPatterns engine isDigit, ∀ text,
    engine.findIter entry.regex text = entry.bounded.pattern.findIter text.toList
  word_of_alphanumeric : ∀ c : Char, c.isAlphanum → isRegexWord engine c
  word_of_folds : ∀ c, foldsToAscii c → isRegexWord engine c
  word_of_digit : ∀ c, isDigit c → isRegexWord engine c
  not_word_opening : isRegexWord engine '<' = false
  not_word_closing : isRegexWord engine '>' = false

/-! ### Replacing -/

def replaceInBandIdentifiers (text : String) (includeEmailAndIp : Bool) : String :=
  let text := replaceWithBoundaries engine text jwtRe "<redacted:jwt>" jwtCharacter jwtCharacter
  let text := replaceWithBoundaries engine text macRe "<redacted:mac-address>" (asciiHex ·)
    (asciiHex ·)
  if includeEmailAndIp then
    let text := replaceWithBoundaries engine text emailRe "<redacted:email-address>"
      (emailLeftForbidden engine ·) (emailRightForbidden engine ·)
    let text := replaceWithBoundaries engine text ipv4Re "<redacted:ip-address>"
      (wordOrDot engine ·) (wordOrDot engine ·)
    let text := replaceWithBoundaries engine text uuidRe "<redacted:uuid>" (asciiHex ·)
      (asciiHex ·)
    replaceWithBoundaries engine text longHexRe "<redacted:long-identifier>" (asciiHex ·)
      (asciiHex ·)
  else text

/-- The call that redacts a pattern. -/
def InBandPattern.redact (entry : InBandPattern) (text : String) : String :=
  replaceWithBoundaries engine text entry.regex entry.replacement
    (entry.bounded.leftForbidden ·) (entry.bounded.rightForbidden ·)

end Engine

variable {engine : TextEngine} {isDigit : Char → Bool}

theorem segment_between (as bs cs : List Char) :
    Tiling.segment (as ++ bs ++ cs) as.length (as.length + bs.length) = bs := by
  rw [Tiling.segment, List.append_assoc, List.drop_left, Nat.add_sub_cancel_left, List.take_left]

/-- A match is replaced unless it is rejected for its neighbours. -/
theorem render_pieceOf (b : BoundedPattern Char) (replacement before w after : List Char) :
    (if (∃ c ∈ before.getLast?, b.leftForbidden c) ∨ ∃ c ∈ after.head?, b.rightForbidden c
      then w else replacement) =
    (pieceOf (free b.leftForbidden before.getLast? && free b.rightForbidden after.head?)
      w).render replacement := by
  have hfree : ∀ (forbidden : Char → Bool) neighbour,
      (∃ c ∈ neighbour, forbidden c) ↔ free forbidden neighbour = false := by
    intro forbidden neighbour
    cases neighbour with
    | none => simp [free]
    | some c => simp [free]
  rw [pieceOf]
  split
  · next hforbidden =>
    rw [hfree, hfree] at hforbidden
    rw [if_neg]
    · rfl
    · rcases hforbidden with h | h
      · simp [h]
      · simp [h]
  · next hallowed =>
    rw [hfree, hfree, not_or, Bool.not_eq_false, Bool.not_eq_false] at hallowed
    rw [if_pos (by rw [hallowed.1, hallowed.2]; rfl)]
    rfl

/-- Replacing the matches of a pattern, from a position on, behind a run without one. -/
theorem replaceFrom_findFrom {b : BoundedPattern Char} (hproper : Proper b.checkedChoice)
    (replacement : List Char) : ∀ previous rest before run, (before ++ run).getLast? = previous →
    TextEngine.replaceFrom (fun before found after =>
        if (∃ c ∈ before.getLast?, b.leftForbidden c) ∨ ∃ c ∈ after.head?, b.rightForbidden c
        then found else replacement)
      (before ++ run ++ rest) before.length
      (b.pattern.findFrom 0 (before.length + run.length) rest) =
    run ++ render replacement (scan b.checkedChoice 0 previous rest) := by
  refine scan_rule hproper ?_ ?_ ?_
  · intro previous before run hprevious
    have hdrop : (before ++ run).drop before.length = run := List.drop_left
    rw [scan_nil, List.append_nil]
    exact hdrop.trans (List.append_nil run).symm
  · intro previous c cs hnone ih before run hprevious
    have hrun := ih before (run ++ [c]) (by rw [← List.append_assoc, List.getLast?_concat])
    have hhead : (b.pattern.splits (c :: cs)).head? = none := by
      rw [checkedChoice_eq_none_iff.mp hnone, List.head?_nil]
    have htext : before ++ (run ++ [c]) ++ cs = before ++ run ++ c :: cs := by simp
    rw [htext, List.length_append, List.length_singleton, ← Nat.add_assoc] at hrun
    rw [scan_of_none hnone, render_cons, findFrom_of_none hhead, hrun, List.append_assoc]
    rfl
  · intro previous allowed w ys hne hchoice ih before run hprevious
    obtain ⟨ys', htext, -, hhead, hallowed⟩ := checkedChoice_spec hchoice
    obtain rfl := List.append_cancel_left htext
    have hrest := ih (before ++ run ++ w) [] (by
      rw [List.append_nil, lastOr, ← hprevious, List.getLast?_append])
    rw [List.append_nil, List.length_nil, Nat.add_zero, List.nil_append, List.length_append,
      List.length_append] at hrest
    rw [scan_of_some hne hchoice, render_cons, findFrom_of_some hne hhead, TextEngine.replaceFrom,
      ← List.append_assoc (before ++ run), hrest]
    have hrun := segment_between before run (w ++ ys)
    have hword := segment_between (before ++ run) w ys
    rw [List.length_append] at hword
    rw [← List.append_assoc] at hrun
    rw [hrun, hword]
    have htake : (before ++ run ++ w ++ ys).take (before.length + run.length) = before ++ run := by
      rw [← List.length_append, List.append_assoc (before ++ run), List.take_left]
    have hdrop : (before ++ run ++ w ++ ys).drop (before.length + run.length + w.length) = ys := by
      rw [← List.length_append, ← List.length_append, List.drop_left]
    rw [htake, hdrop, hallowed, ← hprevious, render_pieceOf]

/-! ### What the patterns have in common -/

/-- A pattern with a replacement that begins with `<` and ends with `>`, and that it does not
touch. -/
structure Replaces (entry : InBandPattern) : Prop where
  ends : entry.bounded.pattern.EndsIn entry.bounded.leftForbidden
  isSealed : ∃ inner, entry.replacement.toList = '<' :: inner ++ ['>'] ∧
    entry.bounded.Sealed '<' inner '>'

theorem TextEngine.Laws.not_digit (hlaws : engine.Laws isDigit) {c : Char}
    (h : isRegexWord engine c = false) : isDigit c = false := by
  by_contra hdigit
  rw [hlaws.word_of_digit c (Bool.eq_true_of_not_eq_false hdigit)] at h
  cases h

theorem jwt_endsIn : jwtPattern.EndsIn (decide <| jwtCharacter ·) :=
  .seq _ (.seq _ (.seq _ (.seq _ (endsIn_atLeast 7 fun _ h => h))))

theorem mac_endsIn : macPattern.EndsIn asciiHex := .seq _ (.times (endsIn_one fun _ h => h) 1)

theorem uuid_endsIn : uuidPattern.EndsIn asciiHex :=
  .seq _ <| .seq _ <| .seq _ <| .seq _ <| .seq _ <| .seq _ <| .seq _ <| .seq _ <| .seq _ <|
    .seq _ <| .times (endsIn_one fun _ h => h) 11

theorem longHex_endsIn : longHexPattern.EndsIn asciiHex := endsIn_atLeast 31 fun _ h => h

theorem email_endsIn (hlaws : engine.Laws isDigit) :
    (emailPattern (isRegexWord engine)).EndsIn (emailLeftForbidden engine) := by
  refine .seq _ (.seq _ (.seq _ (.seq _ (endsIn_atLeast 1 ?_))))
  intro c hc
  have hword : isRegexWord engine c := by
    rcases Bool.or_eq_true_iff.mp hc with halpha | hfolds
    · exact hlaws.word_of_alphanumeric c (Bool.or_eq_true_iff.mpr (.inl halpha))
    · exact hlaws.word_of_folds c hfolds
  exact Bool.or_eq_true_iff.mpr (.inl hword)

theorem octet_endsIn (hlaws : engine.Laws isDigit) :
    (octet isDigit).EndsIn (wordOrDot engine) := by
  have hdigit : ∀ c, isDigit c → wordOrDot engine c :=
    fun c hc => Bool.or_eq_true_iff.mpr (.inl (hlaws.word_of_digit c hc))
  refine .alt (.seq _ (.seq _ (endsIn_one ?_))) (.alt (.seq _ (.seq _ (endsIn_one hdigit)))
    (.seq _ (.seq _ (endsIn_one hdigit))))
  intro c hc
  exact Bool.or_eq_true_iff.mpr (.inl (hlaws.word_of_alphanumeric c (isAlphanum_of_between hc)))

theorem ipv4_endsIn (hlaws : engine.Laws isDigit) :
    (ipv4Pattern isDigit).EndsIn (wordOrDot engine) :=
  .seq _ (.times (.seq _ (octet_endsIn hlaws)) 2)

theorem replaces_jwt : Replaces jwtInBand := by
  refine ⟨jwt_endsIn, "redacted:jwt".toList, rfl, separates_of_uses rfl rfl,
    separates_of_uses rfl rfl, rfl, ?_⟩
  have hdot : jwtPattern.Demands '.' :=
    .seq_right _ (.seq_left (demands_one fun _ => among_singleton_iff.mp) _)
  exact cleanFrom_of_demands hdot (by decide)

theorem replaces_mac : Replaces macInBand := by
  refine ⟨mac_endsIn, "redacted:mac-address".toList, rfl, separates_of_uses rfl rfl,
    separates_of_uses rfl rfl, rfl, ?_⟩
  exact cleanFrom_of_tails (by decide)

theorem replaces_uuid : Replaces uuidInBand := by
  refine ⟨uuid_endsIn, "redacted:uuid".toList, rfl, separates_of_uses rfl rfl,
    separates_of_uses rfl rfl, rfl, ?_⟩
  have hdash : uuidPattern.Demands '-' :=
    .seq_right _ (.seq_left (demands_one fun _ => among_singleton_iff.mp) _)
  exact cleanFrom_of_demands hdash (by decide)

theorem replaces_longHex : Replaces longHexInBand := by
  refine ⟨longHex_endsIn, "redacted:long-identifier".toList, rfl, separates_of_uses rfl rfl,
    separates_of_uses rfl rfl, rfl, ?_⟩
  exact cleanFrom_of_tails (by decide)

theorem replaces_email (hlaws : engine.Laws isDigit) : Replaces (emailInBand engine) := by
  have hopening : (emailInBand engine).bounded.Separates '<' := by
    refine separates_of_uses ?_ (Bool.or_eq_false_iff.mpr ⟨hlaws.not_word_opening, rfl⟩)
    simp only [emailInBand, emailPattern, atLeast, Pattern.times, uses, hlaws.not_word_opening]
    rfl
  have hclosing : (emailInBand engine).bounded.Separates '>' := by
    refine separates_of_uses ?_ (Bool.or_eq_false_iff.mpr ⟨hlaws.not_word_closing, rfl⟩)
    simp only [emailInBand, emailPattern, atLeast, Pattern.times, uses, hlaws.not_word_closing]
    rfl
  have hreplacement : "<redacted:email-address>".toList =
      '<' :: "redacted:email-address".toList ++ ['>'] := by decide
  refine ⟨email_endsIn hlaws, "redacted:email-address".toList, hreplacement, hopening, hclosing,
    ?_, ?_⟩
  · exact Bool.or_eq_false_iff.mpr ⟨hlaws.not_word_closing, rfl⟩
  · have hat : (emailPattern (isRegexWord engine)).Demands '@' :=
      .seq_right _ (.seq_left (demands_one fun _ => among_singleton_iff.mp) _)
    exact cleanFrom_of_demands hat (by decide)

theorem replaces_ipv4 (hlaws : engine.Laws isDigit) : Replaces (ipv4InBand engine isDigit) := by
  have hopening : (ipv4InBand engine isDigit).bounded.Separates '<' := by
    refine separates_of_uses ?_ (Bool.or_eq_false_iff.mpr ⟨hlaws.not_word_opening, rfl⟩)
    simp only [ipv4InBand, ipv4Pattern, octet, Pattern.optional, Pattern.times, uses,
      hlaws.not_digit hlaws.not_word_opening]
    rfl
  have hclosing : (ipv4InBand engine isDigit).bounded.Separates '>' := by
    refine separates_of_uses ?_ (Bool.or_eq_false_iff.mpr ⟨hlaws.not_word_closing, rfl⟩)
    simp only [ipv4InBand, ipv4Pattern, octet, Pattern.optional, Pattern.times, uses,
      hlaws.not_digit hlaws.not_word_closing]
    rfl
  have hreplacement : "<redacted:ip-address>".toList =
      '<' :: "redacted:ip-address".toList ++ ['>'] := by decide
  refine ⟨ipv4_endsIn hlaws, "redacted:ip-address".toList, hreplacement, hopening, hclosing,
    ?_, ?_⟩
  · exact Bool.or_eq_false_iff.mpr ⟨hlaws.not_word_closing, rfl⟩
  · have hdot : (ipv4Pattern isDigit).Demands '.' :=
      .seq_right _ (.seq_left (.seq_left (demands_one fun _ => among_singleton_iff.mp) _) _)
    exact cleanFrom_of_demands hdot (by decide)

theorem replaces_inBand (hlaws : engine.Laws isDigit) :
    ∀ entry ∈ inBandPatterns engine isDigit, Replaces entry := by
  intro entry hentry
  simp only [inBandPatterns, List.mem_cons, List.not_mem_nil, or_false] at hentry
  rcases hentry with rfl | rfl | rfl | rfl | rfl | rfl
  · exact replaces_jwt
  · exact replaces_mac
  · exact replaces_email hlaws
  · exact replaces_ipv4 hlaws
  · exact replaces_uuid
  · exact replaces_longHex

/-- The call for a pattern looks at the neighbours of its matches. -/
theorem redact_eq (hlaws : engine.Laws isDigit) {entry : InBandPattern}
    (hentry : entry ∈ inBandPatterns engine isDigit) (text : String) :
    entry.redact engine text = String.ofList
      (entry.bounded.redactChecked entry.replacement.toList none text.toList) := by
  have hproper := proper_checkedChoice (replaces_inBand hlaws entry hentry).ends
  have hreplace := replaceFrom_findFrom hproper entry.replacement.toList none text.toList [] [] rfl
  rw [InBandPattern.redact, replaceWithBoundaries, TextEngine.replaceAll,
    hlaws.findIter_inBand entry hentry]
  exact congrArg String.ofList hreplace

/-! ### When the redaction is complete -/

/-- A pattern is redacted completely in a text: the result is the text with the matches
replaced that are found between allowed neighbours, and has none of them left. -/
def InBandPattern.Complete (engine : TextEngine) (entry : InBandPattern) (text : String) : Prop :=
  entry.redact engine text = String.ofList
      (entry.bounded.redactLookaround entry.replacement.toList none text.toList) ∧
    entry.bounded.CleanFrom none (entry.redact engine text).toList

def asciiWord (value : Char) : Bool := value.isAlphanum || among ['_'] value || foldsToAscii value

/-- An engine for these expressions, with the classes of ASCII and the two letters. -/
def asciiEngine : TextEngine where
  findIter regex text :=
    if regex = wordCharRe then if text.toList.any asciiWord then [(0, 1)] else []
    else if regex = jwtRe then jwtPattern.findIter text.toList
    else if regex = macRe then macPattern.findIter text.toList
    else if regex = emailRe then (emailPattern asciiWord).findIter text.toList
    else if regex = ipv4Re then (ipv4Pattern Char.isDigit).findIter text.toList
    else if regex = uuidRe then uuidPattern.findIter text.toList
    else longHexPattern.findIter text.toList
  toLowercase text := text

theorem isRegexWord_asciiEngine : isRegexWord asciiEngine = asciiWord := by
  funext c
  have hfind : asciiEngine.findIter wordCharRe (String.singleton c) =
      if asciiWord c then [(0, 1)] else [] := by
    simp only [asciiEngine, if_pos, String.toList_singleton, List.any_cons, List.any_nil,
      Bool.or_false]
  rw [isRegexWord, Bool.eq_iff_iff, decide_eq_true_iff, TextEngine.isMatch, hfind]
  split
  · next hword => exact iff_of_true (List.cons_ne_nil _ _) hword
  · next hword => exact iff_of_false (fun h => h rfl) hword

theorem asciiEngine_laws : asciiEngine.Laws Char.isDigit := by
  have hword : ∀ c, c.isAlphanum || among ['_'] c → isRegexWord asciiEngine c := by
    intro c hc
    rw [isRegexWord_asciiEngine]
    exact Bool.or_eq_true_iff.mpr (.inl hc)
  have hdistinct : [longHexRe, uuidRe, ipv4Re, emailRe, macRe, jwtRe, wordCharRe].Nodup := by
    decide
  simp only [List.nodup_cons, List.mem_cons, List.not_mem_nil, or_false, not_or] at hdistinct
  refine ⟨?_, fun c hc => hword c (Bool.or_eq_true_iff.mpr (.inl hc)), ?_, ?_, ?_, ?_⟩
  · intro entry hentry text
    simp only [inBandPatterns, List.mem_cons, List.not_mem_nil, or_false] at hentry
    rcases hentry with rfl | rfl | rfl | rfl | rfl | rfl
    · simp [asciiEngine, jwtInBand, hdistinct]
    · simp [asciiEngine, macInBand, hdistinct]
    · rw [emailInBand, isRegexWord_asciiEngine]
      simp [asciiEngine, hdistinct]
    · simp [asciiEngine, ipv4InBand, hdistinct]
    · simp [asciiEngine, uuidInBand, hdistinct]
    · simp [asciiEngine, longHexInBand, hdistinct]
  · intro c hc
    rw [isRegexWord_asciiEngine]
    exact Bool.or_eq_true_iff.mpr (.inr hc)
  · intro c hc
    have halphanum : c.isAlphanum := Bool.or_eq_true_iff.mpr (.inr hc)
    exact hword c (Bool.or_eq_true_iff.mpr (.inl halphanum))
  · rw [isRegexWord_asciiEngine]
    rfl
  · rw [isRegexWord_asciiEngine]
    rfl

/-- An e-mail address that begins behind the `@` of another is kept with it. -/
example :
    let text := "a@b.com-x@y.com".toList
    (emailInBand asciiEngine).bounded.redactChecked ['*'] none text = text := by
  rw [emailInBand, isRegexWord_asciiEngine]
  decide

/-- The e-mail pattern as it is published does not ignore case. -/
def publishedEmailPattern (isWord : Char → Bool) : Pattern Char :=
  .seq (atLeast 1 fun value => isWord value || among ['.', '+', '-'] value) <|
  .seq (one (among ['@'])) <|
  .seq (atLeast 1 fun value => value.isAlpha || value.isDigit || among ['.', '-'] value) <|
  .seq (one (among ['.'])) <|
  atLeast 2 Char.isAlpha

/-- This makes a difference only where one of the two letters stands that fold to ASCII. -/
theorem email_agreeOn_published (isWord : Char → Bool) {text : List Char}
    (h : ∀ c ∈ text, ¬ foldsToAscii c) :
    (emailPattern isWord).AgreeOn (publishedEmailPattern isWord) text := by
  have hletter : ∀ c ∈ text, letterAnyCase c = c.isAlpha := by
    intro c hc
    rw [letterAnyCase, Bool.eq_false_of_not_eq_true (h c hc), Bool.or_false]
  refine .seq (.refl _ _) (.seq (.refl _ _) (.seq (agreeOn_atLeast 1 ?_) (.seq (.refl _ _)
    (agreeOn_atLeast 2 hletter))))
  intro c hc
  rw [hletter c hc]

/-- Elsewhere the redaction is to be that of the published e-mail pattern. -/
theorem email_redactLookaround_published (engine : TextEngine) {text : List Char}
    (h : ∀ c ∈ text, ¬ foldsToAscii c) (replacement : List Char) :
    (emailInBand engine).bounded.redactLookaround replacement none text =
      redactLookaround ⟨publishedEmailPattern (isRegexWord engine), emailLeftForbidden engine,
        emailRightForbidden engine⟩ replacement none text :=
  redactLookaround_congr (email_agreeOn_published _ h) replacement none

/-- A web token takes in every character beside it that is forbidden there. -/
theorem takesNeighbours_jwt : jwtInBand.bounded.TakesNeighbours where
  begins := .seq (beginsIn_atLeast 7 _) _
  extends_left c w hc hw := by
    obtain ⟨u, v, rfl, hu, hv⟩ := matches_seq.mp hw
    exact .seq (hu.cons_atLeast hc) hv
  greedy := .seq _ (.seq _ (.seq _ (.seq _ (greedy_atLeast 8 _))))

theorem takesNeighbours_longHex : longHexInBand.bounded.TakesNeighbours where
  begins := beginsIn_atLeast 31 asciiHex
  extends_left _ _ hc hw := hw.cons_atLeast hc
  greedy := greedy_atLeast 32 asciiHex

/-- Where a match takes in its neighbours, every text is redacted completely. -/
theorem complete_of_takesNeighbours (hlaws : engine.Laws isDigit) {entry : InBandPattern}
    (hentry : entry ∈ inBandPatterns engine isDigit) (htakes : entry.bounded.TakesNeighbours)
    (text : String) : entry.Complete engine text := by
  obtain ⟨hends, inner, hreplacement, hsealed⟩ := replaces_inBand hlaws entry hentry
  rw [InBandPattern.Complete, redact_eq hlaws hentry, String.toList_ofList, String.ofList_inj,
    hreplacement]
  refine (redactChecked_complete_iff hends hsealed none text.toList).mpr ⟨?_, ?_⟩
  · exact htakes.nothingHidden hends text.toList
  · exact nothingBehind_of_begins (proper_checkedChoice hends) htakes.begins none text.toList

theorem jwt_complete (hlaws : engine.Laws isDigit) (text : String) :
    jwtInBand.Complete engine text :=
  complete_of_takesNeighbours hlaws List.mem_cons_self takesNeighbours_jwt text

theorem longHex_complete (hlaws : engine.Laws isDigit) (text : String) :
    longHexInBand.Complete engine text :=
  complete_of_takesNeighbours hlaws (by simp [inBandPatterns]) takesNeighbours_longHex text

/-! ### All patterns -/

theorem replaceWithBoundaries_congr (engine : TextEngine) (text regex replacement : String)
    {left right left' right' : Char → Prop} [DecidablePred left] [DecidablePred right]
    [DecidablePred left'] [DecidablePred right'] (hleft : ∀ c, left c ↔ left' c)
    (hright : ∀ c, right c ↔ right' c) :
    replaceWithBoundaries engine text regex replacement left right =
      replaceWithBoundaries engine text regex replacement left' right' := by
  simp only [replaceWithBoundaries, hleft, hright]

/-- The redaction applies the patterns one after another. -/
theorem replaceInBandIdentifiers_eq (engine : TextEngine) (isDigit : Char → Bool)
    (text : String) : replaceInBandIdentifiers engine text true =
      (inBandPatterns engine isDigit).foldl (fun text entry => entry.redact engine text) text := by
  have hjwt : jwtInBand.redact engine text =
      replaceWithBoundaries engine text jwtRe "<redacted:jwt>" jwtCharacter jwtCharacter :=
    replaceWithBoundaries_congr engine text jwtRe "<redacted:jwt>"
      (fun _ => decide_eq_true_iff) fun _ => decide_eq_true_iff
  rw [inBandPatterns, List.foldl_cons, hjwt]
  rfl

/-- No long hexadecimal number is left in the end. -/
theorem longHex_clean (hlaws : engine.Laws isDigit) (text : String) :
    longHexInBand.bounded.CleanFrom none (replaceInBandIdentifiers engine text true).toList := by
  rw [replaceInBandIdentifiers_eq engine isDigit]
  exact (longHex_complete hlaws _).2

end LivefireRag.Projection
