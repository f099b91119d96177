import Parq.Sequence.Tagged
import Parq.Sequence.Limit
import Parq.Sequence.FirstMany
import Parq.Sequence.Width
import Parq.Transition.Core
import Parq.Transition.Simulation
import Parq.Data.Debug
import Parq.Data.Lines
import Parq.Json.Core
import Parq.Json.Writer
import Parq.Binary.Truncate
import Parq.Chunk.Core
import Parq.Chunk.Partition
import Parq.Chunk.Lines
import Parq.Chunk.Checked
import Parq.Flatten.Leaves
import Parq.Flatten.Names
import Parq.Flatten.Rebuild
import Parq.Flatten.Flat
import Parq.Schema.Core
import Parq.Schema.Explicit
import Parq.Schema.Ladder
import Parq.Schema.Inference
import Parq.Schema.Promotion
import Parq.Schema.Dump
import Parq.Schema.Join
import Parq.Schema.Blanks
import Parq.Schema.Compose
import Parq.Parser.Reading
import Parq.Parser.Correctness
import Parq.Parser.Chunked
import Parq.Parser.Strict
import Parq.Parser.Refinement
import Parq.Parser.Simd
import Parq.Parser.Quarantine
import Parq.Parser.Numbering
import Parq.Parser.Limit
import Parq.Parser.Modes
import Parq.Parser.Required
import Parq.Parser.Pinpoint
import Parq.Parser.Batches
import Parq.Parser.Integers
import Parq.Parser.Exported
import Parq.Parser.Widened
import Parq.Parser.Lossless
import Parq.Drain.Core
import Parq.Drain.Schedule
import Parq.Pipeline.Core
import Parq.Pipeline.Steps
import Parq.Pipeline.Invariant
import Parq.Pipeline.Result
import Parq.Pipeline.Progress
import Parq.Pipeline.Setup
import Parq.Pipeline.Schedule
import Parq.Pipeline.Reload
import Parq.Pipeline.WellFormed
import Parq.Pipeline.Abort
import Parq.Pipeline.Backpressure
import Parq.Pipeline.Rows
import Parq.Pipeline.Quarantine
import Parq.Pipeline.Lenient
import Parq.Pipeline.Mark
import Parq.Pipeline.Flattened
import Parq.Pipeline.LineNumbers
import Parq.Pipeline.Draining
import Parq.Pipeline.Enact
import Parq.Pipeline.Order
import Parq.Pipeline.Outcomes
import Parq.Pipeline.Shards
import Parq.Pipeline.Repair
import Parq.Pipeline.Columns
import Parq.Pipeline.Reconvert
import Parq.Pipeline.Reorder
import Parq.Pipeline.Reinfer
import Parq.Pipeline.Widen
import Parq.Pipeline.Lossless
import Parq.Pipeline.Distribute
import Parq.Pipeline.Simd
import Parq.Pipeline.Letters
import Parq.Pipeline.Settings
import Parq.Pipeline.Bounds
import Parq.Pipeline.Remains
import Parq.Pipeline.Session
import Parq.Cli.Telemetry
import Parq.FrontEnd.Python
import Parq.FrontEnd.Main
