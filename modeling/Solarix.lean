import Solarix.Decoder.DecodeType
import Solarix.Decoder.Layout
import Solarix.Decoder.Alike
import Solarix.Decoder.Complete
import Solarix.Decoder.Sizes
import Solarix.Decoder.Sound
import Solarix.Decoder.ZeroSized
import Solarix.Decoder.Lossless
import Solarix.Decoder.Instantiation
import Solarix.Decoder.Panic
import Solarix.Decoder.Program
import Solarix.Decoder.History
import Solarix.Decoder.Accepted
import Solarix.Decoder.RoundTrip
import Solarix.Decoder.Storable
import Solarix.Api.Filters
import Solarix.Api.FilterColumns
import Solarix.Api.FilterKeys
import Solarix.Api.Tables
import Solarix.Api.Instructions
import Solarix.Api.Accounts
import Solarix.Api.Paging
import Solarix.Storage.Writer
import Solarix.Pipeline.RowKeys
import Solarix.Pipeline.Rpc
import Solarix.Pipeline.Decode
import Solarix.Core.Traverse
import Solarix.Pipeline.Agreement
import Solarix.Core.Chunks
import Solarix.Pipeline.ColdStart
import Solarix.Core.Steps
import Solarix.Pipeline.Backfill
import Solarix.Pipeline.SlotChunks
import Solarix.Core.Batches
import Solarix.Pipeline.AccountBatches
import Solarix.Pipeline.IndexerState
import Solarix.Pipeline.BlockRuns
import Solarix.Pipeline.Cancellation
import Solarix.Pipeline.Stream
import Solarix.Pipeline.Reconnect
import Solarix.Pipeline.Restart
import Solarix.Pipeline.Indexer
import Solarix.Pipeline.WsStream
import Solarix.Pipeline.Cursors
import Solarix.Pipeline.Counters
import Solarix.Core.KeyedTable
import Solarix.Core.Newest
import Solarix.Core.Window
import Solarix.Core.Offset
import Solarix.Storage.Schema
import Solarix.Core.SqlLexer
import Solarix.Storage.Queries
import Solarix.Storage.Columns
import Solarix.Storage.Identifiers
import Solarix.Storage.SqlText
import Solarix.Storage.Promoted
import Solarix.Storage.WriteBlock
import Solarix.Pipeline.WriterTask
import Solarix.Pipeline.IndexContents
import Solarix.Api.LiveIndex
import Solarix.Api.InstructionCount
import Solarix.Storage.PromotedValues
import Solarix.Storage.AccountUpsert
import Solarix.Core.Memo
import Solarix.Storage.AccountWrites
import Solarix.Pipeline.Snapshot
import Solarix.Core.Retry
import Solarix.Pipeline.RpcRequests
import Solarix.Storage.Containment
import Solarix.Storage.FilterRows
import Solarix.Registry.IdlManager
import Solarix.Registry.Canonical
import Solarix.Registry.Registration
import Solarix.Registry.CacheRuns
import Solarix.Registry.IdlAccount
import Solarix.Registry.Requests
import Solarix.Registry.CacheAgreement
import Solarix.Registry.Lifecycle
import Solarix.Core.Timed
import Solarix.Shutdown
import Solarix.Redaction
import Solarix.Storage.Identifiers
