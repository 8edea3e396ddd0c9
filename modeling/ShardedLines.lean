import ShardedLines.Sink.Open
import ShardedLines.Channel.Memory
import ShardedLines.Channel.Scripted
import ShardedLines.Coder.Record
import ShardedLines.Logging.Filter
import ShardedLines.Proofs.Channel.FullWrite
import ShardedLines.Proofs.Channel.Stream
import ShardedLines.Proofs.Channel.Memory
import ShardedLines.Proofs.Writer.Closing
import ShardedLines.Proofs.Writer.TextRun
import ShardedLines.Proofs.Writer.Attempts
import ShardedLines.Proofs.Channel.Shards
import ShardedLines.Proofs.Channel.File
import ShardedLines.Proofs.Writer.ShardRun
import ShardedLines.Proofs.Text.Lines
import ShardedLines.Proofs.Json.Grammar
import ShardedLines.Proofs.Json.ReadBack
import ShardedLines.Proofs.Json.Skipping
import ShardedLines.Proofs.Logging.ReadBack
import ShardedLines.Proofs.Logging.Building
import ShardedLines.Proofs.Sink.ReadBack
import ShardedLines.Proofs.Channel.Broadcast
import ShardedLines.Proofs.Channel.Lifecycle
import ShardedLines.Proofs.Channel.Taking
import ShardedLines.Proofs.Writer.ShardCounts
import ShardedLines.Proofs.Writer.MemoryWrites
import ShardedLines.Proofs.Writer.SharedMemory
import ShardedLines.Proofs.Writer.Kept
import ShardedLines.Proofs.Writer.ShardClosing
import ShardedLines.Proofs.Writer.SingleShard
import ShardedLines.Proofs.Writer.RefusedRecords
import ShardedLines.Proofs.Naming.Scan
import ShardedLines.Proofs.Naming.Pattern
import ShardedLines.Proofs.Naming.Template
import ShardedLines.Proofs.Disk.Path
import ShardedLines.Proofs.Disk.Growth
import ShardedLines.Proofs.Disk.Expand
import ShardedLines.Proofs.Channel.PlacedFiles
import ShardedLines.Proofs.Writer.LocalRun
import ShardedLines.Proofs.Channel.ScriptedWrite
import ShardedLines.Proofs.Disk.Creation
import ShardedLines.Proofs.Disk.Listing
import ShardedLines.Proofs.Naming.ShardNames
import ShardedLines.Proofs.Channel.BroadcastEnds
import ShardedLines.Proofs.Writer.ShardParts
import ShardedLines.Proofs.Naming.Numbers
import ShardedLines.Proofs.Naming.Search
import ShardedLines.Proofs.Text.WrittenLines
import ShardedLines.Proofs.Writer.LocalStream
import ShardedLines.Proofs.Writer.StrayCalls
import ShardedLines.Proofs.Logging.Grammar
import ShardedLines.Proofs.Naming.Filling
import ShardedLines.Proofs.Sink.Opening
import ShardedLines.Proofs.Writer.InRange
import ShardedLines.Proofs.Writer.RoundRobin
import ShardedLines.Proofs.Logging.Directives
import ShardedLines.Proofs.Logging.Folding
import ShardedLines.Proofs.Coder.Controls
import ShardedLines.Proofs.Writer.IntegerLines
import ShardedLines.Proofs.Json.Keeping
import ShardedLines.Proofs.Window.ReadBack
import ShardedLines.Proofs.Sink.Building
import ShardedLines.Proofs.Sink.ShardCount
