import LivefireRag.Lib.Text
import LivefireRag.Embedding.TaskPart

/-!
# Embedding profiles

A profile names the model, the shape of its vectors and how a query is composed for
it. `validateEmbeddingProfile` is the check every reader and writer of vectors makes of
a profile before it uses it.
-/

namespace LivefireRag.Embedding

open Machine Fallible

def maxQueryBytes : ℕ := 8192
def maxQueryInstructionBytes : ℕ := 8192
def maxQueryCompositionBytes : ℕ := 1024
def maxComposedQueryBytes : ℕ := 16384
def prefixL2NormalizeV1 := "prefix_then_l2_normalize_v1"

structure VectorDerivation where
  parentEmbeddingProfileSha256 : String
  parentDimensions : U32
  transformation : String
  deriving DecidableEq

structure EmbeddingProfile where
  id : String
  version : String
  sha256 : String
  model : String
  dimensions : U32
  normalization : String
  vectorDerivation : Option VectorDerivation
  queryInstruction : Option String
  queryComposition : Option String
  deriving DecidableEq

def VectorDerivation.validate (derivation : VectorDerivation) (profile : EmbeddingProfile) :
    Except EmbeddingError Unit :=
  throwIf (derivation.transformation ≠ prefixL2NormalizeV1 ∨
      derivation.parentDimensions ≠ 4096 ∨ (profile.dimensions : ℕ) ∉ [1024, 2048] ∨
      profile.normalization ≠ "l2" ∨ ¬ Pipeline.IsDigest derivation.parentEmbeddingProfileSha256)
    (.invalid "vector derivation")

/-- How a query and its instruction are put together. -/
def validateQueryComposition (instruction composition : String) : Except EmbeddingError Unit := do
  throwIf (maxQueryInstructionBytes < instruction.utf8ByteSize ∨
      maxQueryCompositionBytes < composition.utf8ByteSize ∨
      Text.countMatches composition "\x7bquery\x7d" ≠ 1 ∨
      Text.countMatches composition "\x7bquery_instruction\x7d" ≠ 1)
    (.invalid "query composition contract")
  let remaining := Text.replace (Text.replace composition "\x7bquery_instruction\x7d" "")
    "\x7bquery\x7d" ""
  throwIf ('\x7b' ∈ remaining.toList ∨ '\x7d' ∈ remaining.toList)
    (.invalid "query composition placeholder")
  let fixed ← orThrow (checkedSub composition.utf8ByteSize
      ("\x7bquery_instruction\x7d".utf8ByteSize + "\x7bquery\x7d".utf8ByteSize))
    (.invalid "query composition size")
  throwIf (maxComposedQueryBytes < fixed + instruction.utf8ByteSize + maxQueryBytes)
    (.invalid "query composition expansion")

def validateEmbeddingProfile (profile : EmbeddingProfile) : Except EmbeddingError Unit := do
  throwIf (profile.id = "" ∨ profile.version = "" ∨ profile.model = "" ∨
      profile.dimensions = 0 ∨ profile.normalization ∉ ["l2", "none"] ∨
      ¬ Pipeline.IsDigest profile.sha256 ∨
      profile.queryInstruction.isSome ≠ profile.queryComposition.isSome)
    (.invalid "embedding profile fields")
  forM profile.vectorDerivation.toList fun derivation => derivation.validate profile
  forM (profile.queryInstruction.toList.zip profile.queryComposition.toList) fun query =>
    validateQueryComposition query.1 query.2

end LivefireRag.Embedding
