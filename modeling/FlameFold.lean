import FlameFold.CommandLine.Complaint
import FlameFold.CommandLine.Help
import FlameFold.CommandLine.Key
import FlameFold.CommandLine.Number
import FlameFold.CommandLine.Options
import FlameFold.CommandLine.Reach
import FlameFold.CommandLine.Request
import FlameFold.CommandLine.Run
import FlameFold.Conversion.Outcome
import FlameFold.Conversion.Run
import FlameFold.Decimal.Binary64
import FlameFold.Decimal.Places
import FlameFold.Decimal.Rounding
import FlameFold.Decimal.Shortest
import FlameFold.Dump
import FlameFold.Duration
import FlameFold.FileSystem.Basic
import FlameFold.FileSystem.Change
import FlameFold.FileSystem.Lookup
import FlameFold.Json.Printer
import FlameFold.Json.Reader
import FlameFold.Json.Value
import FlameFold.Log
import FlameFold.Log.Filter
import FlameFold.Machine.Format
import FlameFold.Machine.Lookup
import FlameFold.Machine.Runner
import FlameFold.Machine.Shell.Arithmetic
import FlameFold.Machine.Shell.Builtin
import FlameFold.Machine.Shell.Condition
import FlameFold.Machine.Shell.Field
import FlameFold.Machine.Shell.Pattern
import FlameFold.Machine.Shell.Reader
import FlameFold.Machine.Shell.Run
import FlameFold.Machine.Shell.Script
import FlameFold.Machine.Shell.State
import FlameFold.Machine.Tool
import FlameFold.Machine.Tool.Awk.Run
import FlameFold.Machine.Tool.Awk.Script
import FlameFold.Machine.Tool.Characters
import FlameFold.Machine.Tool.Edit
import FlameFold.Machine.Tool.Expression
import FlameFold.Machine.Tool.Lines
import FlameFold.Machine.Tool.Search
import FlameFold.Machine.Toolbox
import FlameFold.Main
import FlameFold.Mismatch
import FlameFold.Moment
import FlameFold.Output.Collapsed
import FlameFold.Output.Graphic
import FlameFold.Output.Placement
import FlameFold.Output.ReportFile
import FlameFold.Path
import FlameFold.Path.Order
import FlameFold.Path.Raw
import FlameFold.Program.Child
import FlameFold.Program.Deadline
import FlameFold.Program.Invocation
import FlameFold.Program.System
import FlameFold.Proofs.CommandLine.Accepting
import FlameFold.Proofs.CommandLine.Bare
import FlameFold.Proofs.CommandLine.Converting
import FlameFold.Proofs.CommandLine.Folding
import FlameFold.Proofs.CommandLine.Layers
import FlameFold.Proofs.CommandLine.Running
import FlameFold.Proofs.CommandLine.Spelling
import FlameFold.Proofs.CommandLine.Words
import FlameFold.Proofs.Conversion.Asking
import FlameFold.Proofs.Conversion.Breakdown
import FlameFold.Proofs.Conversion.Calls
import FlameFold.Proofs.Conversion.Collapsed
import FlameFold.Proofs.Conversion.Course
import FlameFold.Proofs.Conversion.Deeds
import FlameFold.Proofs.Conversion.Lasting
import FlameFold.Proofs.Conversion.Listed
import FlameFold.Proofs.Conversion.Outcomes
import FlameFold.Proofs.Conversion.Overflow
import FlameFold.Proofs.Conversion.Reordered
import FlameFold.Proofs.Conversion.Rerun
import FlameFold.Proofs.Conversion.Script
import FlameFold.Proofs.Conversion.Steady
import FlameFold.Proofs.Conversion.Undumped
import FlameFold.Proofs.Conversion.Visits
import FlameFold.Proofs.Dump.Lines
import FlameFold.Proofs.Except
import FlameFold.Proofs.FileSystem.Changes
import FlameFold.Proofs.FileSystem.Filling
import FlameFold.Proofs.FileSystem.Growth
import FlameFold.Proofs.FileSystem.Keeping
import FlameFold.Proofs.FileSystem.Making
import FlameFold.Proofs.FileSystem.Refilling
import FlameFold.Proofs.Json.Reading
import FlameFold.Proofs.Json.Scalars
import FlameFold.Proofs.Machine.Lookup
import FlameFold.Proofs.Machine.Runner
import FlameFold.Proofs.Output.Collapsed
import FlameFold.Proofs.Output.Decoding
import FlameFold.Proofs.Output.Directory
import FlameFold.Proofs.Output.Listing
import FlameFold.Proofs.Output.ReportFile
import FlameFold.Proofs.Output.Saving
import FlameFold.Proofs.Output.Standing
import FlameFold.Proofs.Output.Writers
import FlameFold.Proofs.Path.Ancestors
import FlameFold.Proofs.Path.FileName
import FlameFold.Proofs.Path.Join
import FlameFold.Proofs.Path.Order
import FlameFold.Proofs.Path.Raw
import FlameFold.Proofs.Program.Child
import FlameFold.Proofs.Program.Deadline
import FlameFold.Proofs.Program.System
import FlameFold.Proofs.Recording.Artifacts
import FlameFold.Proofs.Recording.Containment
import FlameFold.Proofs.Recording.Fitting
import FlameFold.Proofs.Recording.Labels
import FlameFold.Proofs.Recording.Written
import FlameFold.Proofs.Report.Reading
import FlameFold.Proofs.Report.Spelling
import FlameFold.Proofs.Session.Asking
import FlameFold.Proofs.Session.Step
import FlameFold.Proofs.Settings.Document
import FlameFold.Proofs.Settings.Fitting
import FlameFold.Proofs.Settings.Layers
import FlameFold.Proofs.Stack.Boundaries
import FlameFold.Proofs.Stack.Feeding
import FlameFold.Proofs.Stack.Headers
import FlameFold.Proofs.Stack.Holding
import FlameFold.Proofs.Stack.Merging
import FlameFold.Proofs.Stack.Noise
import FlameFold.Proofs.Stack.Reading
import FlameFold.Proofs.Stack.Sorting
import FlameFold.Proofs.Stack.Tally
import FlameFold.Proofs.Text.Blank
import FlameFold.Proofs.Text.Damage
import FlameFold.Proofs.Text.Decoded
import FlameFold.Proofs.Text.Digits
import FlameFold.Proofs.Text.Pieces
import FlameFold.Proofs.Text.Utf8
import FlameFold.Proofs.Toml.Lines
import FlameFold.Proofs.Toml.Number
import FlameFold.Proofs.Toml.Order
import FlameFold.Proofs.Toml.Soundness
import FlameFold.Proofs.Toml.Statements
import FlameFold.Proofs.Toml.Table
import FlameFold.Proofs.Toml.Text
import FlameFold.Recording
import FlameFold.Recording.Raw
import FlameFold.Regex.Basic
import FlameFold.Regex.CharSet
import FlameFold.Regex.Fault
import FlameFold.Regex.Meaning
import FlameFold.Regex.Pattern
import FlameFold.Regex.Posix
import FlameFold.Regex.Reader
import FlameFold.Regex.Spans
import FlameFold.Render
import FlameFold.Report.Basic
import FlameFold.Report.Printer
import FlameFold.Report.Reader
import FlameFold.Session
import FlameFold.Settings.Basic
import FlameFold.Settings.Document
import FlameFold.Settings.Overrides
import FlameFold.Stack.CountTable
import FlameFold.Stack.Folder
import FlameFold.Stack.LineKind
import FlameFold.SystemFault
import FlameFold.Text.Blank
import FlameFold.Text.Category
import FlameFold.Text.Hidden
import FlameFold.Text.Lines
import FlameFold.Text.Quoted
import FlameFold.Text.Terminal
import FlameFold.Text.Utf8
import FlameFold.Toml.Document
import FlameFold.Toml.Number
import FlameFold.Toml.Reader
import FlameFold.Toml.Table
import FlameFold.Toml.Text
import FlameFold.Toml.Value
import FlameFold.Toml.Writer
