import LivefireRag.Embedding.Profile
import LivefireRag.Embedding.Shard

/-!
# Queries for an embedding model

How the text that is sent for a query is composed (`tryComposeQuery`), and how the
vector that comes back is adapted to the profile (`adaptModelVector`).
-/

namespace LivefireRag.Embedding

open Machine Fallible

/-- The position of the first occurrence of `pattern`. -/
def findFrom (pattern : List Char) : List Char → Option ℕ
  | [] => if pattern = [] then some 0 else none
  | c :: cs =>
    if pattern.isPrefixOf (c :: cs) then some 0 else (findFrom pattern cs).map (· + 1)

def instructionToken := "\x7bquery_instruction\x7d"
def queryToken := "\x7bquery\x7d"

/-- The characters from one position to another. -/
def slice (cs : List Char) (start stop : ℕ) : List Char := (cs.take stop).drop start

/-- The composition with its two tokens replaced. -/
def fillComposition (composition instruction query : String) : Except EmbeddingError String := do
  let cs := composition.toList
  let instructionAt ← orThrow (findFrom instructionToken.toList cs)
    (.invalid "query composition contract")
  let queryAt ← orThrow (findFrom queryToken.toList cs) (.invalid "query composition contract")
  let afterInstruction := instructionAt + instructionToken.length
  let afterQuery := queryAt + queryToken.length
  return String.ofList <|
    if instructionAt < queryAt then
      cs.take instructionAt ++ instruction.toList ++ slice cs afterInstruction queryAt ++
        query.toList ++ cs.drop afterQuery
    else
      cs.take queryAt ++ query.toList ++ slice cs afterQuery instructionAt ++
        instruction.toList ++ cs.drop afterInstruction

def tryComposeQuery (profile : EmbeddingProfile) (query : String) :
    Except EmbeddingError String := do
  validateEmbeddingProfile profile
  throwIf (query = "" ∨ maxQueryBytes < query.utf8ByteSize) (.invalid "query length")
  match profile.queryInstruction, profile.queryComposition with
  | some instruction, some composition =>
    let value ← fillComposition composition instruction query
    throwIf (maxComposedQueryBytes < value.utf8ByteSize) (.invalid "composed query length")
    return value
  | none, none => return query
  | _, _ => .error (.invalid "embedding profile fields")

example : fillComposition "\x7bquery_instruction\x7d: \x7bquery\x7d!" "find" "text" =
    .ok "find: text!" := by decide

/-- The vector a model returns as a vector of the profile. `normalizePrefix` divides the
values by their Euclidean norm in 64-bit floats; it fails when the norm is not finite or
vanishes. -/
def adaptModelVector (unitNorm : List F32 → Bool) (normalizePrefix : List F32 → Option (List F32))
    (profile : EmbeddingProfile) (vector : List F32) : Except EmbeddingError (List F32) := do
  validateEmbeddingProfile profile
  match profile.vectorDerivation with
  | none =>
    validateVector unitNorm vector profile.dimensions profile.normalization
    return vector
  | some derivation =>
    throwIf (vector.length ≠ (derivation.parentDimensions : ℕ) ∨
      ∃ value ∈ vector, ¬ value.IsFinite) (.invalid "parent vector dimensions")
    let reduced ← orThrow (normalizePrefix (vector.take profile.dimensions))
      (.invalid "reduced vector norm")
    validateVector unitNorm reduced profile.dimensions "l2"
    return reduced

end LivefireRag.Embedding
