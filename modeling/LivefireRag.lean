import LivefireRag.Lib.Fallible
import LivefireRag.Lib.Streams
import LivefireRag.Lib.Machine
import LivefireRag.Lib.Tiling
import LivefireRag.Lib.Matching
import LivefireRag.Lib.Seen
import LivefireRag.Lib.Chunks
import LivefireRag.Lib.Staged
import LivefireRag.Lib.Tables
import LivefireRag.Lib.Float32
import LivefireRag.Lib.Nearest
import LivefireRag.Lib.SortedMap
import LivefireRag.Lib.Json
import LivefireRag.Lib.JsonPath
import LivefireRag.Lib.Text
import LivefireRag.Pipeline.Basic
import LivefireRag.Pipeline.Manifest
import LivefireRag.Pipeline.TokenPlan
import LivefireRag.Pipeline.PlanSpec
import LivefireRag.Pipeline.PlanTiling
import LivefireRag.Lib.Bytes
import LivefireRag.Pipeline.TokenCounts
import LivefireRag.Pipeline.PlanBuilder
import LivefireRag.Pipeline.BuilderSound
import LivefireRag.Pipeline.ResultSet
import LivefireRag.Cloud.Assignment
import LivefireRag.Cloud.Boundaries
import LivefireRag.Cloud.Bundle
import LivefireRag.Cloud.BundleBuilder
import LivefireRag.Cloud.Report
import LivefireRag.Lib.Framing
import LivefireRag.Pipeline.OrderDigest
import LivefireRag.Pipeline.BenchmarkSelection
import LivefireRag.Pipeline.QueryVectorSet
import LivefireRag.Lib.Ranking
import LivefireRag.Index.Basic
import LivefireRag.Embedding.Profile
import LivefireRag.Embedding.Shard
import LivefireRag.Index.Lexical
import LivefireRag.Index.Assembly
import LivefireRag.Builder.Basic
import LivefireRag.Builder.RankMerge
import LivefireRag.Lib.Crash
import LivefireRag.Lib.Runs
import LivefireRag.Embedding.TaskPart
import LivefireRag.Lib.Grouping
import LivefireRag.Lib.Hex
import LivefireRag.Builder.DocumentRuns
import LivefireRag.Ocsf.TypedEvent
import LivefireRag.Lib.JsonAccess
import LivefireRag.Embedding.Query
import LivefireRag.Index.Open
import LivefireRag.Index.Search
import LivefireRag.Pipeline.SealedVectors
import LivefireRag.ToolProvider.Basic
import LivefireRag.ToolProvider.Calling
import LivefireRag.ToolProvider.Sessions
import LivefireRag.ToolProvider.Protocol
import LivefireRag.Launch.Control
import LivefireRag.Launch.Cleanup
import LivefireRag.Lib.PyJson
import LivefireRag.Review.Blinding
import LivefireRag.Embedding.Composition
import LivefireRag.Embedding.ShardRoundTrip
import LivefireRag.Index.DigestText
import LivefireRag.Index.Fused
import LivefireRag.Index.VectorShards
import LivefireRag.Lib.JsonLeaves
import LivefireRag.Lib.Packing
import LivefireRag.Lib.Percentile
import LivefireRag.Pipeline.DocumentFormat
import LivefireRag.Pipeline.PlanPacking
import LivefireRag.Pipeline.TokenStatistics
import LivefireRag.Projection.Accounting
import LivefireRag.Projection.SafeAttributes
import LivefireRag.Lib.Discount
import LivefireRag.Evaluation.Accepted
import LivefireRag.Evaluation.Invariance
import LivefireRag.Evaluation.Scores
import LivefireRag.Evaluation.Sound
import LivefireRag.Index.LexicalAgreement
import LivefireRag.Builder.DocumentCollector
import LivefireRag.Builder.ExecutionTime
import LivefireRag.Builder.Finalization
import LivefireRag.Embedding.Cache
import LivefireRag.Index.Occurrences
import LivefireRag.Index.Published
import LivefireRag.Builder.ArtifactCoverage
import LivefireRag.Builder.BatchPlan
import LivefireRag.Builder.BenchmarkCoverage
import LivefireRag.Builder.OverlapApproval
import LivefireRag.Embedding.Response
import LivefireRag.Launch.ModelTree
import LivefireRag.Lib.Pattern
import LivefireRag.Lib.Redaction
import LivefireRag.Lib.SplitTime
import LivefireRag.Pipeline.DerivedPlan
import LivefireRag.Projection.EventTime
import LivefireRag.Projection.InBandRedaction
import LivefireRag.Index.PublishedSearch
