import LivefireRag.Pipeline.TokenCounts

/-!
# Building a token-balanced plan

The builder counts the tokens of every formatted document, cuts the documents
greedily into tasks that respect the token and the document limit, cuts each
task at the object boundaries into slices, and seals the plan.

The tokenizer backend is a parameter: it reads an artifact into something that
encodes text. The outer loop of the greedy cut runs on fuel, one unit for each
document; every turn consumes at least one document, so the fuel suffices
(`taskRangesFrom_tiles` in the next file).
-/

namespace LivefireRag.Pipeline

open Fallible Machine Tiling

/-! ### The tokenizer -/

/-- A tokenizer as the backend reads it from its artifact. -/
structure Tokenizer where
  truncation : Bool
  padding : Bool
  encode : String → Bool → Except String (List U32)

abbrev TokenizerBackend := List UInt8 → Except String Tokenizer

/-- A loaded tokenizer whose bytes match the durable artifact digest. -/
structure ExactTokenizer where
  reference : ExecutableTokenizerRef
  tokenizer : Tokenizer

def ExactTokenizer.fromBytes (prims : Primitives) (backend : TokenizerBackend)
    (reference : ExecutableTokenizerRef) (bytes : List UInt8) : Result ExactTokenizer := do
  reference.validate
  throwIf (digestBytes prims bytes ≠ reference.artifact.sha256)
    (.invalid "tokenizer artifact byte digest")
  let tokenizer ← (backend bytes).mapError .tokenizer
  -- either would make a reported count differ from the model's input
  throwIf (tokenizer.truncation ∨ tokenizer.padding)
    (.invalid "tokenizer artifact truncation or padding")
  return ⟨reference, tokenizer⟩

def ExactTokenizer.tokenIds (tokenizer : ExactTokenizer) (input : String) : Result (List U32) := do
  let inputBytes : U64 ← orThrow (toWidth 64 input.utf8ByteSize)
    (.invalid "tokenizer input byte length")
  requireSafeU64 inputBytes
  throwIf (tokenizer.reference.maximumInputBytes < inputBytes)
    (.invalid "tokenizer input byte limit")
  (tokenizer.tokenizer.encode input tokenizer.reference.addSpecialTokens).mapError .tokenizer

def ExactTokenizer.count (tokenizer : ExactTokenizer) (input : String) : Result U64 := do
  let tokenIds ← tokenizer.tokenIds input
  let count : U64 ← orThrow (toWidth 64 tokenIds.length) (.invalid "token count")
  requireSafeU64 count
  return count

/-! ### The greedy cut -/

structure TokenBalanceOptions where
  maximumTaskTokens : U64
  maximumTaskDocuments : U32

/-- The token count of one document, within the limits of the model and of a
task. -/
def documentTokenCount (tokenizer : ExactTokenizer) (profile : EmbeddingProfileRef)
    (options : TokenBalanceOptions) (document : PreparedDocumentRow) : Result U32 := do
  let input ← formatDocumentInputExact profile.documentFormat document.semanticText
  let count ← tokenizer.count input
  let count : U32 ← orThrow (toWidth 32 count) (.invalid "document tokens")
  throwIf ((count : ℕ) = 0 ∨ profile.maximumInputTokens < count ∨
      (options.maximumTaskTokens : ℕ) < count)
    (.invalid "overlength embedding document")
  return count

/-- The inner loop: how many documents the task has once it is full, when it has
`documents` of them with `tokens` tokens and `rest` follows. -/
def extendTask (options : TokenBalanceOptions) : List U32 → ℕ → ℕ → ℕ
  | [], documents, _ => documents
  | count :: rest, documents, tokens =>
    if documents < options.maximumTaskDocuments ∧
        ∃ next ∈ checkedAdd 64 tokens count, next ≤ options.maximumTaskTokens then
      extendTask options rest (documents + 1) (tokens + count)
    else documents

/-- The outer loop: the ranges of the tasks from `start` on. -/
def taskRangesFrom (options : TokenBalanceOptions) (counts : List U32) :
    ℕ → ℕ → Result (List (ℕ × ℕ))
  | 0, _ => return []
  | fuel + 1, start =>
    if start < counts.length then do
      let stop := start + extendTask options (counts.drop start) 0 0
      throwIf (stop = start) (.invalid "overlength embedding task")
      let ranges ← taskRangesFrom options counts fuel stop
      return (start, stop) :: ranges
    else return []

def taskRanges (options : TokenBalanceOptions) (counts : List U32) : Result (List (ℕ × ℕ)) :=
  taskRangesFrom options counts counts.length 0

/-! ### Tasks and slices -/

section Hashing

variable (prims : Primitives)

/-- One object: the part of the task that lies in it, if any, becomes a slice. -/
def buildV2Slice (documents : List PreparedDocumentRow) (counts : List U32)
    (taskStart taskEnd : U64) (state : List EmbeddingInputSliceV2 × U64)
    (object : PreparedDocumentObject) : Result (List EmbeddingInputSliceV2 × U64) := do
  let (slices, objectStart) := state
  let objectEnd : U64 ← orThrow (toWidth 64 (objectStart + object.object.rows))
    (.invalid "document object range")
  let start := max taskStart objectStart
  let stop := min taskEnd objectEnd
  if start < stop then
    let sliceCounts ← orThrow (rowRange counts start stop) (.invalid "document slice token range")
    let sliceDocuments ← orThrow (rowRange documents start stop) (.invalid "document slice range")
    let tokenCount ← sumCounts sliceCounts
    let maximumDocumentTokens ← maximumCount sliceCounts
    let documentTokenCountsSha256 ← documentTokenCountsDigest prims start sliceCounts
    return (slices ++ [{
      path := object.object.path
      objectSha256 := object.object.sha256
      rowOffset := start - objectStart
      rows := stop - start
      embeddingInputOrderSha256 := embeddingInputOrderDigest prims sliceDocuments
      tokenCount, maximumDocumentTokens, documentTokenCountsSha256 }], objectEnd)
  else return (slices, objectEnd)

def buildV2Slices (objects : List PreparedDocumentObject) (documents : List PreparedDocumentRow)
    (counts : List U32) (taskStart taskEnd : U64) : Result (List EmbeddingInputSliceV2) := do
  let (slices, _) ← objects.foldlM (buildV2Slice prims documents counts taskStart taskEnd) ([], 0)
  throwIf (slices = []) (.invalid "empty document slices")
  return slices

/-- The task of one range of the documents. -/
def buildTask (identity : TaskIdentityContext) (objects : List PreparedDocumentObject)
    (documents : List PreparedDocumentRow) (counts : List U32) (range : ℕ × ℕ) :
    Result EmbeddingTaskV2 := do
  let ordinalStart : U64 ← orThrow (toWidth 64 range.1) (.invalid "task ordinal")
  let ordinalEnd : U64 ← orThrow (toWidth 64 range.2) (.invalid "task ordinal")
  let taskCounts := segment counts range.1 range.2
  let tokenCount ← sumCounts taskCounts
  let maximumDocumentTokens ← maximumCount taskCounts
  let tokenDigest ← documentTokenCountsDigest prims ordinalStart taskCounts
  let orderDigest := embeddingInputOrderDigest prims (segment documents range.1 range.2)
  let inputSlices ← buildV2Slices prims objects documents counts ordinalStart ordinalEnd
  let taskId := (embeddingTaskV2Id prims identity ordinalStart ordinalEnd orderDigest tokenDigest
    tokenCount).val
  let resultPath ← SafeRelativePath.new ("parts/" ++ taskId ++ ".f32")
  let receiptPath ← SafeRelativePath.new ("receipts/" ++ taskId ++ ".json")
  return {
    taskId, ordinalStart, ordinalEnd, inputSlices
    embeddingInputOrderSha256 := orderDigest
    tokenCount, maximumDocumentTokens
    documentTokenCountsSha256 := tokenDigest
    resultPath, receiptPath }

/-- The tasks the builder computes for the counted documents. -/
def plannedTasks (identity : TaskIdentityContext) (options : TokenBalanceOptions)
    (objects : List PreparedDocumentObject) (documents : List PreparedDocumentRow)
    (counts : List U32) : Result (List EmbeddingTaskV2) := do
  let ranges ← taskRanges options counts
  ranges.mapM (buildTask prims identity objects documents counts)

/-! ### The plan -/

variable (backend : TokenizerBackend)

/-- The digest a plan carries before it is sealed. -/
def unsealedDigest : Result Digest := Digest.new (String.ofList (List.replicate 64 '0'))

def buildTokenBalancedPlanWithCounts (prepared : PreparedCorpusManifest)
    (documents : List PreparedDocumentRow) (embeddingProfile : EmbeddingProfileRef)
    (executableTokenizer : ExecutableTokenizerRef) (tokenizerBytes : List UInt8)
    (options : TokenBalanceOptions) : Result (EmbeddingPlanV2 × List U32) := do
  prepared.validate prims
  validatePreparedDocuments prims prepared documents
  embeddingProfile.validate
  executableTokenizer.validateForProfile embeddingProfile
  requireSafeU64 options.maximumTaskTokens
  throwIf ((options.maximumTaskTokens : ℕ) = 0 ∨ (options.maximumTaskDocuments : ℕ) = 0)
    (.invalid "token balance limits")
  let tokenizer ← ExactTokenizer.fromBytes prims backend executableTokenizer tokenizerBytes
  let counts ← documents.mapM (documentTokenCount tokenizer embeddingProfile options)
  let tasks ← plannedTasks prims ⟨prepared.componentSha256, embeddingProfile.component.sha256,
    executableTokenizer.artifact.sha256⟩ options prepared.documents documents counts
  let countsBytes := encodeDocumentTokenCounts counts
  let countsDigest ← documentTokenCountsDigest prims 0 counts
  let componentSha256 ← unsealedDigest
  let path ← SafeRelativePath.new documentTokenCountsPath
  let bytes : U64 ← orThrow (toWidth 64 countsBytes.length)
    (.invalid "document token count object bytes")
  let statistics ← tokenStatistics counts
  let plan : EmbeddingPlanV2 := {
    schemaVersion := embeddingPlanV2Schema
    componentSha256
    preparedCorpusSha256 := prepared.componentSha256
    dataset := prepared.dataset
    embeddingProfile
    executableTokenizer
    documentCount := prepared.documentCount
    documentOrderSha256 := prepared.documentOrderSha256
    documentTokenCountsSha256 := countsDigest
    documentTokenCountsObject := {
      path
      rows := prepared.documentCount
      bytes
      sha256 := digestBytes prims countsBytes
      documentTokenCountsSha256 := countsDigest }
    tokenStatistics := statistics
    maximumTaskTokens := options.maximumTaskTokens
    maximumTaskDocuments := options.maximumTaskDocuments
    tasks }
  let sealed ← plan.seal prims
  return (sealed, counts)

def buildTokenBalancedPlan (prepared : PreparedCorpusManifest)
    (documents : List PreparedDocumentRow) (embeddingProfile : EmbeddingProfileRef)
    (executableTokenizer : ExecutableTokenizerRef) (tokenizerBytes : List UInt8)
    (options : TokenBalanceOptions) : Result EmbeddingPlanV2 := do
  let (plan, _) ← buildTokenBalancedPlanWithCounts prims backend prepared documents
    embeddingProfile executableTokenizer tokenizerBytes options
  return plan

/-- Re-tokenizes the documents and compares the plan with the one built from
them. -/
def EmbeddingPlanV2.validateWithTokenizer (plan : EmbeddingPlanV2)
    (prepared : PreparedCorpusManifest) (documents : List PreparedDocumentRow)
    (tokenizerBytes : List UInt8) : Result Unit := do
  plan.validateManifestBinding prims prepared
  let expected ← buildTokenBalancedPlan prims backend prepared documents plan.embeddingProfile
    plan.executableTokenizer tokenizerBytes ⟨plan.maximumTaskTokens, plan.maximumTaskDocuments⟩
  throwIf (expected ≠ plan) (.invalid "embedding plan v2 exact token binding")

end Hashing

end LivefireRag.Pipeline
