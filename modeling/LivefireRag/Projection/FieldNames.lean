import Mathlib.Data.List.Infix
import LivefireRag.Lib.Text
import LivefireRag.Lib.Tiling

/-!
# Field names and credential texts

What the projection decides from the path of a field and from a text: whether the field
holds a secret or free text, and whether a text shows a credential. The engine of the
regular expressions and the tables of lowercase letters belong to libraries.
-/

namespace LivefireRag.Projection

/-- The libraries for text: the matches of a pattern, in order and apart from each other,
as offsets of their first character and of the character after them, and lowercase. -/
structure TextEngine where
  findIter : String → String → List (ℕ × ℕ)
  toLowercase : String → String

namespace TextEngine

variable (engine : TextEngine)

def isMatch (pattern text : String) : Prop := engine.findIter pattern text ≠ []

instance (pattern text : String) : Decidable (engine.isMatch pattern text) := by
  unfold isMatch
  infer_instance

/-- The characters from a position on, with the matches replaced. A replacement is made
from the characters before the match, the match and the characters after it. -/
def replaceFrom (f : List Char → List Char → List Char → List Char) (chars : List Char) :
    ℕ → List (ℕ × ℕ) → List Char
  | position, [] => chars.drop position
  | position, (start, stop) :: found =>
    Tiling.segment chars position start ++
      (f (chars.take start) (Tiling.segment chars start stop) (chars.drop stop) ++
        replaceFrom f chars stop found)

def replaceAll (pattern text : String)
    (f : List Char → List Char → List Char → List Char) : String :=
  String.ofList (replaceFrom f text.toList 0 (engine.findIter pattern text))

end TextEngine

/-! ### Patterns -/

def listIndexRe : String := "\\[\\d+\\]"
def camelBoundaryRe : String := "([a-z0-9])([A-Z])"
def nonKeyRe : String := "[^a-z0-9]+"
def positionalTokenRe : String := "(?i)(?:^|\\.)unmapped\\.\\$token/\\d+(?:\\.|$)"

def secretAssignmentRe : String :=
  "(?i)(password|passwd|pwd|secret|token|api[-_]?key|access[-_]?key|authorization|cookie|" ++
    "private[-_]?key)(\\s*(?:=|:)\\s*|\\s+)(\"[^\"]*\"|'[^']*'|[^\\s,;]+)"

def bearerRe : String := "(?i)\\bbearer\\s+[A-Za-z0-9._~+/=-]+"
def accessKeyRe : String := "\\b(?:AKIA|ASIA)[A-Z0-9]\x7b16\x7d\\b"

def jwtRe : String :=
  "[A-Za-z0-9_-]\x7b8,\x7d\\.[A-Za-z0-9_-]\x7b8,\x7d\\.[A-Za-z0-9_-]\x7b8,\x7d"

def secretKeys : List String :=
  ["api_key", "authorization", "access_token", "auth_token", "client_secret", "cookie",
    "password", "passwd", "private_key", "secret", "secret_key", "session_token",
    "refresh_token", "token"]

def secretTokens : List String :=
  ["apikey", "passphrase", "passwd", "password", "secret", "token"]

def freeTextKeys : List String :=
  ["body", "cmd_line", "command", "command_line", "content", "description", "details",
    "headers", "message", "payload", "query", "raw", "request", "script", "script_block",
    "stack_trace", "user_agent"]

/-! ### Field names -/

section Names

variable (engine : TextEngine)

/-- The text without the character at its start and its end. -/
def trimMatches (c : Char) (text : String) : String :=
  String.ofList (((text.toList.dropWhile (· = c)).reverse.dropWhile (· = c)).reverse)

/-- An underscore between the two letters of a match. -/
def splitCamel (_ found _ : List Char) : List Char :=
  match found with
  | [low, high] => [low, '_', high]
  | _ => found

def normalizeKey (value : String) : String :=
  let camel := engine.toLowercase (engine.replaceAll camelBoundaryRe value splitCamel)
  trimMatches '_' (engine.replaceAll nonKeyRe camel fun _ _ _ => ['_'])

def withoutListIndexes (path : String) : String :=
  engine.replaceAll listIndexRe path fun _ _ _ => []

def leafName (path : String) : String :=
  normalizeKey engine (withoutListIndexes engine (((Text.split '.' path).getLast?).getD path))

def pathTokens (path : String) : List String :=
  ((Text.split '.' (withoutListIndexes engine path)).flatMap fun part =>
    let normalized := normalizeKey engine part
    normalized :: Text.split '_' normalized).filter fun token => token ≠ ""

def endsWith (text suffix : String) : Prop := suffix.toList <:+ text.toList

instance (text suffix : String) : Decidable (endsWith text suffix) := by
  unfold endsWith
  infer_instance

def isSecret (path : String) : Prop :=
  let leaf := leafName engine path
  let tokens := pathTokens engine path
  leaf ∈ secretKeys ∨ endsWith leaf "_secret" ∨ endsWith leaf "_password" ∨
    endsWith leaf "_token" ∨ (∃ token ∈ tokens, token ∈ secretTokens) ∨
    (∀ token ∈ ["api", "key"], token ∈ tokens) ∨ (∀ token ∈ ["access", "key"], token ∈ tokens) ∨
    ∀ token ∈ ["private", "key"], token ∈ tokens

def isPositionalRawToken (path : String) : Prop := engine.isMatch positionalTokenRe path

def isFreeText (path : String) : Prop :=
  leafName engine path ∈ freeTextKeys ∨ isPositionalRawToken engine path

instance (path : String) : Decidable (isSecret engine path) := by
  unfold isSecret
  infer_instance

instance (path : String) : Decidable (isFreeText engine path) := by
  unfold isFreeText isPositionalRawToken
  infer_instance

/-! ### Credentials -/

def jwtCharacter (c : Char) : Prop := c.isAlphanum ∨ c = '_' ∨ c = '-'

instance : DecidablePred jwtCharacter := fun c => by unfold jwtCharacter; infer_instance

-- decided for the one character, not over all
instance (priority := 2000) decidableExistsChar {found : Option Char} {p : Char → Prop}
    [DecidablePred p] : Decidable (∃ c ∈ found, p c) :=
  Option.decidableExistsMem found

/-- The text with the matches replaced that stand between no forbidden characters. -/
def replaceWithBoundaries (text pattern replacement : String)
    (leftForbidden rightForbidden : Char → Prop) [DecidablePred leftForbidden]
    [DecidablePred rightForbidden] : String :=
  engine.replaceAll pattern text fun before found after =>
    if (∃ c ∈ before.getLast?, leftForbidden c) ∨ ∃ c ∈ after.head?, rightForbidden c then found
    else replacement.toList

def hasUnsafeCredentialText (value : String) : Prop :=
  engine.isMatch secretAssignmentRe value ∨ engine.isMatch bearerRe value ∨
    engine.isMatch accessKeyRe value ∨
    replaceWithBoundaries engine value jwtRe "<redacted:jwt>" jwtCharacter jwtCharacter ≠ value

instance (value : String) : Decidable (hasUnsafeCredentialText engine value) := by
  unfold hasUnsafeCredentialText
  infer_instance

end Names

end LivefireRag.Projection
