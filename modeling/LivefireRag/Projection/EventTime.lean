import Mathlib.Data.List.MinMax
import Mathlib.Data.Prod.Lex
import Mathlib.Data.String.Basic
import LivefireRag.Lib.Json
import LivefireRag.Lib.SplitTime
import LivefireRag.Projection.FieldNames

/-!
# Event times

The time of an event is that of one of its fields, brought into one form
(`normalizeTime`): a number of seconds, milliseconds, microseconds or nanoseconds since
1970, told apart by its magnitude, or a text in RFC 3339.

A number is split into whole seconds, cut towards zero, and the nanoseconds of the rest
without its sign. So a time before 1970 is shown as if it came after its whole seconds, a
time that rounds up to the next second is refused unless a leap second may stand there, and
a text `nan` is the beginning of 1970. These are the only times that are not shown within a
millisecond, and all others are shown in order (`faithful_and_ordered_iff`).

Numbers are taken as the rational numbers they stand for. Reading them, and the calendar,
belong to libraries (`Chrono`); what is used of the calendar is stated in `Chrono.Laws`.
-/

namespace LivefireRag.Projection

open SplitTime

inductive EventTimeAvailability where
  | available
  | missing
  | presentUnparsed
  deriving DecidableEq

/-- A number as it is read: a rational number, an infinity, or none. -/
inductive FloatValue where
  | finite (value : ℚ)
  | infinite (negative : Bool)
  | nan
  deriving DecidableEq

/-- The libraries: numbers, and points in time with their texts. -/
structure Chrono (Stamp : Type) where
  asF64 : JsonNumber → Option FloatValue
  parseF64 : String → Option FloatValue
  timestampOpt : ℤ → ℕ → Option Stamp
  parseFromRfc3339 : String → Option Stamp
  timestampSubsecNanos : Stamp → ℕ
  toRfc3339Millis : Stamp → String
  toRfc3339Secs : Stamp → String
  toRfc3339 : Stamp → String
  valueText : Json → String

def maxValueChars : ℕ := 240

/-- A text without the white space around it. -/
def trim (text : String) : String :=
  String.ofList ((text.toList.dropWhile Text.IsWhiteSpace).rdropWhile Text.IsWhiteSpace)

def bounded (value : String) (limit : ℕ) : String :=
  let marker := "…[truncated]"
  if value.length ≤ limit then value
  else String.ofList (value.toList.take (limit - marker.length)) ++ marker

/-! ### Numbers -/

/-- Seconds, from a number of seconds or of a smaller unit. -/
def scaled (x : ℚ) : ℚ :=
  if 10 ^ 17 ≤ |x| then x / 10 ^ 9
  else if 10 ^ 14 ≤ |x| then x / 10 ^ 6
  else if 10 ^ 11 ≤ |x| then x / 10 ^ 3
  else x

/-- The nearest signed integer of 64 bits. -/
def saturated (n : ℤ) : ℤ := max (-2 ^ 63) (min n (2 ^ 63 - 1))

-- an infinity has no part after the point, and what is no number counts as zero
def splitSeconds : FloatValue → ℤ × ℕ
  | .finite x => (saturated (whole (scaled x)), nanos (scaled x))
  | .infinite negative => (if negative then -2 ^ 63 else 2 ^ 63 - 1, 0)
  | .nan => (0, 0)

section Normalize

variable {Stamp : Type} (chrono : Chrono Stamp)

def Chrono.numeric : Json → Option FloatValue
  | .number number => chrono.asF64 number
  | .string text => chrono.parseF64 (trim text)
  | _ => none

/-- A point in time as a text, with as many digits as it needs. -/
def Chrono.rendered (stamp : Stamp) : String :=
  if chrono.timestampSubsecNanos stamp = 0 then chrono.toRfc3339Secs stamp
  else chrono.toRfc3339 stamp

/-- What becomes of a value that is not a number with a point in time. -/
def unparsedTime (value : Json) : Option String × EventTimeAvailability :=
  match value with
  | .string text =>
    match chrono.parseFromRfc3339 (trim text) with
    | some stamp => (some (chrono.rendered stamp), .available)
    | none => (some (bounded (trim text) maxValueChars), .presentUnparsed)
  | value => (some (chrono.valueText value), .presentUnparsed)

def normalizeTime (value : Json) : Option String × EventTimeAvailability :=
  match (chrono.numeric value).bind fun number =>
      chrono.timestampOpt (splitSeconds number).1 (splitSeconds number).2 with
  | some stamp => (some (chrono.toRfc3339Millis stamp), .available)
  | none => unparsedTime chrono value

/-- A field of an event, under its path. -/
structure FlatLeaf where
  path : String
  value : Json

def eventTimeNames : List String :=
  ["time", "event_time", "timestamp", "observed_time", "start_time"]

/-- The field of a name that lies highest, the first of these by its path. -/
def highestLeaf (engine : TextEngine) (leaves : List FlatLeaf) (name : String) :
    Option FlatLeaf :=
  (leaves.filter fun leaf => leafName engine leaf.path = name).argmin
    fun leaf => toLex (leaf.path.toList.count '.', leaf.path)

def eventTime (engine : TextEngine) (leaves : List FlatLeaf) :
    Option String × EventTimeAvailability :=
  match eventTimeNames.findSome? (highestLeaf engine leaves) with
  | some leaf => normalizeTime chrono leaf.value
  | none => (none, .missing)

/-- The time of an event is that of one of its fields with the name of a time, and missing
only where there is none. -/
theorem eventTime_cases (engine : TextEngine) (leaves : List FlatLeaf) :
    (eventTime chrono engine leaves = (none, .missing) ∧
        ∀ leaf ∈ leaves, leafName engine leaf.path ∉ eventTimeNames) ∨
      ∃ leaf ∈ leaves, leafName engine leaf.path ∈ eventTimeNames ∧
        eventTime chrono engine leaves = normalizeTime chrono leaf.value := by
  cases hfound : eventTimeNames.findSome? (highestLeaf engine leaves) with
  | none =>
    refine .inl ⟨by rw [eventTime, hfound], fun leaf hleaf hname => ?_⟩
    have hnone := List.findSome?_eq_none_iff.mp hfound _ hname
    rw [highestLeaf, List.argmin_eq_none, List.filter_eq_nil_iff] at hnone
    exact hnone leaf hleaf (decide_eq_true rfl)
  | some leaf =>
    obtain ⟨name, hname, hleaf⟩ := List.exists_of_findSome?_eq_some hfound
    obtain ⟨hmem, hsame⟩ := List.mem_filter.mp (List.argmin_mem hleaf)
    refine .inr ⟨leaf, hmem, ?_, by rw [eventTime, hfound]⟩
    exact of_decide_eq_true hsame ▸ hname

end Normalize

/-! ### Faithful times -/

section Faithful

variable {Stamp : Type} (chrono : Chrono Stamp) (instantOf : String → Option ℚ)
  (least greatest : ℤ)

/-- What is used of the calendar: it has the points in time between two seconds, with
nanoseconds of a second, or of two in the last second of a minute; a text with milliseconds
says the point in time up to them; and a number is no text in RFC 3339. -/
structure Chrono.Laws : Prop where
  least_range : -2 ^ 63 < least ∧ least ≤ 0
  greatest_range : 0 ≤ greatest ∧ greatest < 2 ^ 63 - 1
  timestampOpt : ∀ secs nanos, (∃ stamp, chrono.timestampOpt secs nanos = some stamp) ↔
    (least ≤ secs ∧ secs ≤ greatest) ∧
      (nanos < 10 ^ 9 ∨ nanos < 2 * 10 ^ 9 ∧ secs % 60 = 59)
  toRfc3339Millis : ∀ secs nanos stamp, chrono.timestampOpt secs nanos = some stamp →
    instantOf (chrono.toRfc3339Millis stamp) = some (shown secs nanos)
  parseFromRfc3339 : ∀ text number, chrono.parseF64 text = some number →
    chrono.parseFromRfc3339 text = none

/-- The value is reported as an available time, by a text that stands for the instant. -/
def Shows (value : Json) (t : ℚ) : Prop :=
  ∃ text, normalizeTime chrono value = (some text, .available) ∧ instantOf text = some t

/-- The whole seconds of the instant are those of a point in time. -/
def Representable (x : ℚ) : Prop :=
  least ≤ whole (scaled x) ∧ whole (scaled x) ≤ greatest

/-- A finite number is shown within a millisecond, and no other number is. -/
def Faithful (value : Json) : FloatValue → Prop
  | .finite x => Representable least greatest x →
    ∃ t, Shows chrono instantOf value t ∧ |t - scaled x| ≤ 1 / 1000
  | .infinite _ => (normalizeTime chrono value).2 ≠ .available
  | .nan => (normalizeTime chrono value).2 ≠ .available

/-- Numbers that are scaled alike. -/
def SameClass (x y : ℚ) : Prop :=
  ∀ bound ∈ [(10 : ℚ) ^ 11, 10 ^ 14, 10 ^ 17], bound ≤ |x| ↔ bound ≤ |y|

/-- The instants that are shown are in the order of the numbers. -/
def InOrder (value value' : Json) (number number' : FloatValue) : Prop :=
  ∀ x y, number = .finite x → number' = .finite y → SameClass x y → x ≤ y →
    ∀ t t', Shows chrono instantOf value t → Shows chrono instantOf value' t' → t ≤ t'

/-- The numbers that the split does justice to: not `nan`; not an instant whose rest rounds
up to a second, save in the last second of a minute; and no negative instant with as much
as a millisecond after its whole seconds. -/
def Splittable : FloatValue → Prop
  | .finite x => Representable least greatest x →
    0 ≤ scaled x ∧
        (scaled x - ⌊scaled x⌋ < 1 - 1 / (2 * 10 ^ 9) ∨ ⌊scaled x⌋ % 60 = 59) ∨
      scaled x < 0 ∧ ⌈scaled x⌉ - scaled x < 1 / 1000 - 1 / (2 * 10 ^ 9)
  | .infinite _ => True
  | .nan => False

variable {chrono instantOf least greatest} {value : Json}

theorem unparsedTime_of_numeric (h : chrono.Laws instantOf least greatest) {number : FloatValue}
    (hnumber : chrono.numeric value = some number) :
    (unparsedTime chrono value).2 = .presentUnparsed := by
  cases value with
  | string text => rw [unparsedTime, h.parseFromRfc3339 _ _ hnumber]
  | _ => rfl

/-- What is shown of a number is the point in time that it is split into. -/
theorem shows_iff (h : chrono.Laws instantOf least greatest) {number : FloatValue}
    (hnumber : chrono.numeric value = some number) {t : ℚ} :
    Shows chrono instantOf value t ↔
      ∃ stamp, chrono.timestampOpt (splitSeconds number).1 (splitSeconds number).2 = some stamp ∧
        t = shown (splitSeconds number).1 (splitSeconds number).2 := by
  rw [Shows, normalizeTime, hnumber, Option.bind_some]
  cases hstamp : chrono.timestampOpt (splitSeconds number).1 (splitSeconds number).2 with
  | some stamp =>
    have hinstant := h.toRfc3339Millis _ _ _ hstamp
    constructor
    · rintro ⟨text, htext, ht⟩
      obtain rfl := Option.some.inj (congrArg Prod.fst htext)
      exact ⟨stamp, rfl, Option.some.inj (ht.symm.trans hinstant)⟩
    · rintro ⟨_, -, rfl⟩
      exact ⟨_, rfl, hinstant⟩
  | none =>
    refine iff_of_false ?_ fun ⟨_, hnone, _⟩ => nomatch hnone
    rintro ⟨text, htext, -⟩
    have hunparsed := unparsedTime_of_numeric h hnumber
    dsimp only at htext
    rw [htext] at hunparsed
    cases hunparsed

/-- A number is reported as available exactly when it is shown. -/
theorem available_iff (h : chrono.Laws instantOf least greatest) {number : FloatValue}
    (hnumber : chrono.numeric value = some number) :
    (normalizeTime chrono value).2 = .available ↔ ∃ t, Shows chrono instantOf value t := by
  simp only [shows_iff h hnumber]
  rw [normalizeTime, hnumber, Option.bind_some]
  cases hstamp : chrono.timestampOpt (splitSeconds number).1 (splitSeconds number).2 with
  | some stamp => exact iff_of_true rfl ⟨_, stamp, rfl, rfl⟩
  | none =>
    refine iff_of_false ?_ fun ⟨_, _, hnone, _⟩ => nomatch hnone
    show (unparsedTime chrono value).2 ≠ .available
    rw [unparsedTime_of_numeric h hnumber]
    exact nofun

theorem saturated_eq {n : ℤ} (hlow : -2 ^ 63 ≤ n) (hhigh : n ≤ 2 ^ 63 - 1) : saturated n = n := by
  rw [saturated, min_eq_left hhigh, max_eq_right hlow]

/-- Seconds that are out of range stay out of range when they are saturated. -/
theorem saturated_range (h : chrono.Laws instantOf least greatest) {n : ℤ} :
    (least ≤ saturated n ∧ saturated n ≤ greatest) ↔ least ≤ n ∧ n ≤ greatest := by
  obtain ⟨hleast, -⟩ := h.least_range
  obtain ⟨-, hgreatest⟩ := h.greatest_range
  rw [saturated]
  constructor <;> rintro ⟨hlow, hhigh⟩ <;> omega

/-- A finite number is shown when its seconds are in range and no second is left over. -/
theorem shows_finite_iff (h : chrono.Laws instantOf least greatest) {x : ℚ}
    (hnumber : chrono.numeric value = some (.finite x)) {t : ℚ} :
    Shows chrono instantOf value t ↔
      Representable least greatest x ∧
        (nanos (scaled x) < 10 ^ 9 ∨ whole (scaled x) % 60 = 59) ∧
        t = shown (whole (scaled x)) (nanos (scaled x)) := by
  rw [shows_iff h hnumber, exists_and_right, h.timestampOpt, splitSeconds, saturated_range h]
  have hnanos : nanos (scaled x) < 2 * 10 ^ 9 :=
    (nanos_le_second (scaled x)).trans_lt (by norm_num)
  have hinside : Representable least greatest x → saturated (whole (scaled x)) = whole (scaled x) := by
    rintro ⟨hlow, hhigh⟩
    have hleast := h.least_range
    have hgreatest := h.greatest_range
    exact saturated_eq (by omega) (by omega)
  constructor
  · rintro ⟨⟨hrange, hsecond⟩, rfl⟩
    rw [hinside hrange] at hsecond ⊢
    exact ⟨hrange, hsecond.imp_right And.right, rfl⟩
  · rintro ⟨hrange, hsecond, rfl⟩
    rw [hinside hrange]
    exact ⟨⟨hrange, hsecond.imp_right fun hlast => ⟨hnanos, hlast⟩⟩, rfl⟩

/-- A bound on the nanoseconds, on either side of zero. -/
theorem nanos_lt_iff_of_nonneg {s : ℚ} (hs : 0 ≤ s) :
    nanos s < 10 ^ 9 ↔ s - ⌊s⌋ < 1 - 1 / (2 * 10 ^ 9) := by
  rw [nanos_lt_iff, part_of_nonneg hs]
  norm_num

theorem nanos_lt_iff_of_neg {s : ℚ} (hs : s < 0) :
    nanos s < 10 ^ 6 ↔ ⌈s⌉ - s < 1 / 1000 - 1 / (2 * 10 ^ 9) := by
  rw [nanos_lt_iff, part_of_neg hs]
  norm_num

theorem faithful_finite_iff (h : chrono.Laws instantOf least greatest) {x : ℚ}
    (hnumber : chrono.numeric value = some (.finite x)) :
    Faithful chrono instantOf least greatest value (.finite x) ↔
      Splittable least greatest (.finite x) := by
  refine forall_congr' fun hrange => ?_
  simp only [shows_finite_iff h hnumber, hrange, true_and, and_assoc, exists_and_left,
    exists_eq_left]
  rcases le_or_gt 0 (scaled x) with hs | hs
  · have hclose := abs_shown_sub_le hs
    rw [whole_of_nonneg hs] at hclose ⊢
    rw [nanos_lt_iff_of_nonneg hs]
    constructor
    · rintro ⟨hsecond, -⟩
      exact .inl ⟨hs, hsecond⟩
    · rintro (⟨-, hsecond⟩ | ⟨hneg, -⟩)
      · exact ⟨hsecond, hclose⟩
      · exact absurd hneg (not_lt.mpr hs)
  · rw [abs_shown_sub_le_iff hs]
    constructor
    · rintro ⟨-, hfew⟩
      exact .inr ⟨hs, (nanos_lt_iff_of_neg hs).mp hfew⟩
    · rintro (⟨hpos, -⟩ | ⟨-, hclose⟩)
      · exact absurd hs (not_lt.mpr hpos)
      · have hfew := (nanos_lt_iff_of_neg hs).mpr hclose
        exact ⟨.inl (hfew.trans (by norm_num)), hfew⟩

/-- **The times that are shown faithfully** are those that the split does justice to. -/
theorem faithful_iff (h : chrono.Laws instantOf least greatest) {number : FloatValue}
    (hnumber : chrono.numeric value = some number) :
    Faithful chrono instantOf least greatest value number ↔ Splittable least greatest number := by
  cases number with
  | finite x => exact faithful_finite_iff h hnumber
  | infinite negative =>
    refine iff_of_true (fun havailable => ?_) trivial
    obtain ⟨t, ht⟩ := (available_iff h hnumber).mp havailable
    obtain ⟨stamp, hstamp, -⟩ := (shows_iff h hnumber).mp ht
    -- both ends of the integers are out of range
    obtain ⟨⟨hlow, hhigh⟩, -⟩ := (h.timestampOpt _ _).mp ⟨stamp, hstamp⟩
    have hleast := h.least_range
    have hgreatest := h.greatest_range
    rw [splitSeconds] at hlow hhigh
    cases negative with
    | true =>
      rw [if_pos rfl] at hlow
      exact absurd hlow (not_le.mpr hleast.1)
    | false =>
      rw [if_neg Bool.false_ne_true] at hhigh
      exact absurd hhigh (not_le.mpr hgreatest.2)
  | nan =>
    refine iff_of_false (fun hfaithful => hfaithful ?_) id
    obtain ⟨stamp, hstamp⟩ := (h.timestampOpt 0 0).mpr
      ⟨⟨h.least_range.2, h.greatest_range.1⟩, .inl (by norm_num)⟩
    exact (available_iff h hnumber).mpr ⟨_, (shows_iff h hnumber).mpr ⟨stamp, hstamp, rfl⟩⟩

theorem Splittable.splitsWell {x : ℚ} (hsplit : Splittable least greatest (.finite x))
    (hrange : Representable least greatest x) : SplitsWell (scaled x) := by
  rcases hsplit hrange with ⟨hs, -⟩ | ⟨hs, hclose⟩
  · exact .inl hs
  · exact .inr ((nanos_lt_iff_of_neg hs).mpr hclose)

/-- Numbers that are scaled alike keep their order. -/
theorem scaled_mono {x y : ℚ} (hclass : SameClass x y) (h : x ≤ y) : scaled x ≤ scaled y := by
  have h11 := hclass (10 ^ 11) (by simp)
  have h14 := hclass (10 ^ 14) (by simp)
  have h17 := hclass (10 ^ 17) (by simp)
  unfold scaled
  simp only [h11, h14, h17]
  split
  · exact div_le_div_of_nonneg_right h (by norm_num)
  · split
    · exact div_le_div_of_nonneg_right h (by norm_num)
    · split
      · exact div_le_div_of_nonneg_right h (by norm_num)
      · exact h

theorem inOrder_of_splittable (h : chrono.Laws instantOf least greatest) {value' : Json}
    {number number' : FloatValue} (hnumber : chrono.numeric value = some number)
    (hnumber' : chrono.numeric value' = some number') (hsplit : Splittable least greatest number) :
    InOrder chrono instantOf value value' number number' := by
  rintro x y rfl rfl hclass hle t t' ht ht'
  obtain ⟨hrange, -, rfl⟩ := (shows_finite_iff h hnumber).mp ht
  obtain ⟨-, -, rfl⟩ := (shows_finite_iff h hnumber').mp ht'
  exact shown_mono (hsplit.splitsWell hrange) (scaled_mono hclass hle)

/-- **Faithful times.** Two numbers are shown faithfully and in order exactly when the split
does justice to both. -/
theorem faithful_and_ordered_iff (h : chrono.Laws instantOf least greatest) {value' : Json}
    {number number' : FloatValue} (hnumber : chrono.numeric value = some number)
    (hnumber' : chrono.numeric value' = some number') :
    (Faithful chrono instantOf least greatest value number ∧
        Faithful chrono instantOf least greatest value' number' ∧
        InOrder chrono instantOf value value' number number') ↔
      Splittable least greatest number ∧ Splittable least greatest number' := by
  rw [faithful_iff h hnumber, faithful_iff h hnumber']
  constructor
  · rintro ⟨hsplit, hsplit', -⟩
    exact ⟨hsplit, hsplit'⟩
  · rintro ⟨hsplit, hsplit'⟩
    exact ⟨hsplit, hsplit', inOrder_of_splittable h hnumber hnumber' hsplit⟩

end Faithful

/-! ### A time before 1970, and no time -/

/-- The milliseconds of a point in time, since 1970. -/
def stampMillis (stamp : ℤ × ℕ) : ℤ := stamp.1 * 1000 + (stamp.2 / 10 ^ 6 : ℕ)

/-- The texts of three points in time; other points have a sign and a mark for each
millisecond. -/
def sampleText (millis : ℤ) : String :=
  if millis = -500 then "1969-12-31T23:59:59.500Z"
  else if millis = 0 then "1970-01-01T00:00:00.000Z"
  else if millis = 1500 then "1970-01-01T00:00:01.500Z"
  else String.ofList ((if millis < 0 then '-' else '+') :: List.replicate millis.natAbs '.')

def sampleInstantOf (text : String) : Option ℚ :=
  if text = "1969-12-31T23:59:59.500Z" then some (-1 / 2)
  else if text = "1970-01-01T00:00:00.000Z" then some 0
  else if text = "1970-01-01T00:00:01.500Z" then some (3 / 2)
  else match text.toList with
    | '-' :: marks => some (-(marks.length : ℚ) / 1000)
    | '+' :: marks => some ((marks.length : ℚ) / 1000)
    | _ => none

/-- Numbers of three texts, and the range of the calendar. -/
def sampleChrono : Chrono (ℤ × ℕ) where
  asF64
    | .posInt n => some (.finite n)
    | .negInt n => some (.finite (-(n + 1)))
    | .float _ => none
  parseF64 text :=
    if text = "-1.5" then some (.finite (-3 / 2))
    else if text = "1.5" then some (.finite (3 / 2))
    else if text = "nan" then some .nan
    else none
  timestampOpt secs nanos :=
    if (-8334601228800 ≤ secs ∧ secs ≤ 8210266876799) ∧
        (nanos < 10 ^ 9 ∨ nanos < 2 * 10 ^ 9 ∧ secs % 60 = 59) then some (secs, nanos)
    else none
  parseFromRfc3339 _ := none
  timestampSubsecNanos stamp := stamp.2
  toRfc3339Millis stamp := sampleText (stampMillis stamp)
  toRfc3339Secs stamp := sampleText (stampMillis stamp)
  toRfc3339 stamp := sampleText (stampMillis stamp)
  valueText _ := ""

theorem sampleInstantOf_sampleText (millis : ℤ) :
    sampleInstantOf (sampleText millis) = some ((millis : ℚ) / 1000) := by
  unfold sampleText
  split
  · next h =>
    subst h
    rw [sampleInstantOf, if_pos rfl]
    norm_num
  split
  · next h =>
    subst h
    rw [sampleInstantOf, if_neg (by decide), if_pos rfl]
    norm_num
  split
  · next h =>
    subst h
    rw [sampleInstantOf, if_neg (by decide), if_neg (by decide), if_pos rfl]
    norm_num
  · -- a text with a sign is none of the three
    have hsign : ∀ text : String, text.toList.head? = some '1' →
        String.ofList ((if millis < 0 then '-' else '+') ::
          List.replicate millis.natAbs '.') ≠ text := by
      rintro text htext rfl
      rw [String.toList_ofList, List.head?_cons] at htext
      split at htext <;> exact absurd htext (by decide)
    rw [sampleInstantOf, if_neg (hsign _ (by decide)), if_neg (hsign _ (by decide)),
      if_neg (hsign _ (by decide)), String.toList_ofList]
    by_cases hneg : millis < 0
    · rw [if_pos hneg]
      simp only [List.length_replicate]
      rw [Nat.cast_natAbs, abs_of_neg hneg, Int.cast_neg, neg_neg]
    · rw [if_neg hneg]
      simp only [List.length_replicate]
      rw [Nat.cast_natAbs, abs_of_nonneg (not_lt.mp hneg)]

theorem sampleChrono_laws :
    sampleChrono.Laws sampleInstantOf (-8334601228800) 8210266876799 where
  least_range := by norm_num
  greatest_range := by norm_num
  timestampOpt secs nanos := by
    unfold sampleChrono
    dsimp only
    split
    · next h => exact iff_of_true ⟨_, rfl⟩ h
    · next h => exact iff_of_false (fun ⟨_, hnone⟩ => nomatch hnone) h
  toRfc3339Millis secs nanos stamp hstamp := by
    obtain rfl : (secs, nanos) = stamp := by
      unfold sampleChrono at hstamp
      dsimp only at hstamp
      split at hstamp
      · exact Option.some.inj hstamp
      · cases hstamp
    show sampleInstantOf (sampleText (stampMillis (secs, nanos))) = _
    rw [sampleInstantOf_sampleText, stampMillis, shown, Int.cast_add, Int.cast_mul,
      Int.cast_natCast]
    generalize nanos / 10 ^ 6 = millis
    congr 1
    push_cast
    ring
  parseFromRfc3339 _ _ _ := rfl

theorem scaled_sample : scaled (-3 / 2) = -3 / 2 ∧ ⌈(-3 / 2 : ℚ)⌉ = -1 :=
  ⟨by norm_num [scaled, abs_div], Int.ceil_eq_iff.mpr (by norm_num)⟩

theorem whole_sample : whole (scaled (-3 / 2)) = -1 ∧ nanos (scaled (-3 / 2)) = 500000000 := by
  obtain ⟨hscaled, hceil⟩ := scaled_sample
  rw [hscaled, whole_of_neg (by norm_num), nanos, part_of_neg (by norm_num), hceil]
  refine ⟨rfl, (Nat.floor_eq_iff (by norm_num)).mpr ?_⟩
  norm_num

/-- A second and a half before 1970 is shown as half a second before it, and `nan` as the
beginning of 1970. -/
theorem negative_and_nan_misread :
    sampleChrono.Laws sampleInstantOf (-8334601228800) 8210266876799 ∧
      sampleChrono.numeric (.string "-1.5") = some (.finite (-3 / 2)) ∧
      Representable (-8334601228800) 8210266876799 (-3 / 2) ∧
      normalizeTime sampleChrono (.string "-1.5") =
        (some "1969-12-31T23:59:59.500Z", .available) ∧
      ¬ Faithful sampleChrono sampleInstantOf (-8334601228800) 8210266876799 (.string "-1.5")
        (.finite (-3 / 2)) ∧
      sampleChrono.numeric (.string "nan") = some .nan ∧
      normalizeTime sampleChrono (.string "nan") =
        (some "1970-01-01T00:00:00.000Z", .available) := by
  have hnumber : sampleChrono.numeric (.string "-1.5") = some (.finite (-3 / 2)) := by
    rw [Chrono.numeric, show trim "-1.5" = "-1.5" from by decide]
    rfl
  have hnan : sampleChrono.numeric (.string "nan") = some .nan := by
    rw [Chrono.numeric, show trim "nan" = "nan" from by decide]
    rfl
  obtain ⟨hwhole, hnanos⟩ := whole_sample
  have hrange : Representable (-8334601228800) 8210266876799 (-3 / 2) := by
    rw [Representable, hwhole]
    norm_num
  refine ⟨sampleChrono_laws, hnumber, hrange, ?_, ?_, hnan, ?_⟩
  · rw [normalizeTime, hnumber, Option.bind_some, splitSeconds, hwhole, hnanos]
    rfl
  · intro hfaithful
    have hsplit := (faithful_finite_iff sampleChrono_laws hnumber).mp hfaithful hrange
    obtain ⟨hscaled, hceil⟩ := scaled_sample
    rw [hscaled, hceil] at hsplit
    rcases hsplit with ⟨hpos, -⟩ | ⟨-, hclose⟩
    · norm_num at hpos
    · norm_num at hclose
  · rw [normalizeTime, hnan]
    rfl

/-- A second and a half after 1970 is shown. -/
theorem positive_shown : Faithful sampleChrono sampleInstantOf (-8334601228800) 8210266876799
    (.string "1.5") (.finite (3 / 2)) := by
  have hnumber : sampleChrono.numeric (.string "1.5") = some (.finite (3 / 2)) := by
    rw [Chrono.numeric, show trim "1.5" = "1.5" from by decide]
    rfl
  have hsplit : Splittable (-8334601228800) 8210266876799 (.finite (3 / 2)) := by
    have hscaled : scaled (3 / 2) = 3 / 2 := by
      norm_num [scaled, abs_div]
    have hfloor : ⌊(3 / 2 : ℚ)⌋ = 1 := Int.floor_eq_iff.mpr (by norm_num)
    intro _
    rw [hscaled, hfloor]
    exact .inl ⟨by norm_num, .inl (by norm_num)⟩
  exact ((faithful_and_ordered_iff sampleChrono_laws hnumber hnumber).mpr ⟨hsplit, hsplit⟩).1

end LivefireRag.Projection
