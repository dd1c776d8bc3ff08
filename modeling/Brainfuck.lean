import Brainfuck.Action
import Brainfuck.Change
import Brainfuck.Command.Arguments
import Brainfuck.Command.Job
import Brainfuck.Command.Launch
import Brainfuck.Command.Sink
import Brainfuck.Command.Timeline
import Brainfuck.Command.Usage
import Brainfuck.Device
import Brainfuck.Fault
import Brainfuck.Machine
import Brainfuck.Machine.Conversation
import Brainfuck.Machine.Run
import Brainfuck.Machine.Runner
import Brainfuck.Main
import Brainfuck.Notice
import Brainfuck.Pipe
import Brainfuck.Program
import Brainfuck.Report
import Brainfuck.Session
import Brainfuck.Settings
import Brainfuck.Settings.Environment
import Brainfuck.Settings.File
import Brainfuck.Settings.Load
import Brainfuck.Tape
import Brainfuck.Text.Binary64
import Brainfuck.Text.Blank
import Brainfuck.Text.Decimal
import Brainfuck.Text.Duration
import Brainfuck.Text.Hidden
import Brainfuck.Text.Quoted
import Brainfuck.Text.Record
import Brainfuck.Text.Terminal
import Brainfuck.Text.Utf8
import Brainfuck.Toml.Document
import Brainfuck.Toml.Line
import Brainfuck.Toml.Scalar
import Brainfuck.Toml.Strings
import Brainfuck.Toml.Value
import Brainfuck.Trace
import Brainfuck.Wiring
import Brainfuck.Proofs.Execution
import Brainfuck.Proofs.Running
import Brainfuck.Proofs.FlatLoops
import Brainfuck.Proofs.Refit
import Brainfuck.Proofs.Bench
import Brainfuck.Proofs.Timing
import Brainfuck.Proofs.Resuming
import Brainfuck.Proofs.Conservation
import Brainfuck.Proofs.Solo
import Brainfuck.Proofs.Relocation
import Brainfuck.Proofs.Comments
import Brainfuck.Proofs.Sequencing
import Brainfuck.Proofs.Strictness
import Brainfuck.Proofs.Mirroring
import Brainfuck.Proofs.Halting
import Brainfuck.Proofs.Reach
import Brainfuck.Proofs.Footprint
import Brainfuck.Proofs.Words
import Brainfuck.Proofs.Listeners
import Brainfuck.Proofs.Cancelling
import Brainfuck.Proofs.Invariants
import Brainfuck.Proofs.Effects
import Brainfuck.Proofs.Failing
import Brainfuck.Proofs.Nesting
import Brainfuck.Proofs.Turns
import Brainfuck.Proofs.Posting
import Brainfuck.Proofs.Printing
import Brainfuck.Proofs.ClosedSink
import Brainfuck.Proofs.Outcome
import Brainfuck.Proofs.Replay
import Brainfuck.Proofs.Unread
import Brainfuck.Proofs.StraightLine
import Brainfuck.Proofs.BackJumps
import Brainfuck.Proofs.Numerals
import Brainfuck.Proofs.Variables
import Brainfuck.Proofs.Excerpts
import Brainfuck.Proofs.Keys
import Brainfuck.Proofs.Layers
import Brainfuck.Proofs.Rows
