import LivefireRag.Embedding.TaskPart
import LivefireRag.Index.Basic
import LivefireRag.Pipeline.Basic

/-!
# The builder's results

The errors of the builder: its own, and those of the crates it calls. `aborted` is
the end of a run that the source ends by a panic.
-/

namespace LivefireRag.Builder

inductive Error where
  | embedding (error : Embedding.EmbeddingError)
  | index (error : Index.IndexError)
  | pipeline (error : Pipeline.PipelineError)
  | io
  | json
  | aborted
  | inconsistentDocument (documentId : String)
  | countOverflow
  | accountingClosure (what : String)
  | invalidBatchQuery
  | unknownEmbeddingTask
  | embeddingTaskIncomplete
  deriving DecidableEq

abbrev Result := Except Error

end LivefireRag.Builder
