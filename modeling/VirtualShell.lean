import VirtualShell.Alias.Book
import VirtualShell.Alias.Definition
import VirtualShell.Application
import VirtualShell.Binary64.Basic
import VirtualShell.Binary64.Shortest
import VirtualShell.Builtin.Files
import VirtualShell.Builtin.Filters
import VirtualShell.Builtin.Input
import VirtualShell.Builtin.Limits
import VirtualShell.Builtin.Manual
import VirtualShell.Builtin.Navigation
import VirtualShell.Builtin.Run
import VirtualShell.Builtin.Settings
import VirtualShell.CommandLine
import VirtualShell.Completion
import VirtualShell.Document
import VirtualShell.Environment
import VirtualShell.Execution
import VirtualShell.Host
import VirtualShell.Json.Basic
import VirtualShell.Json.Reader
import VirtualShell.Json.Writer
import VirtualShell.Line.Chain
import VirtualShell.Line.Command
import VirtualShell.Line.Quoting
import VirtualShell.Log
import VirtualShell.Main
import VirtualShell.Options
import VirtualShell.Path
import VirtualShell.Pattern.Basic
import VirtualShell.Pattern.Match
import VirtualShell.Pattern.Reader
import VirtualShell.Proofs.Alias.Book
import VirtualShell.Proofs.Alias.Forwarding
import VirtualShell.Proofs.Alias.Parameters
import VirtualShell.Proofs.Alias.Rescan
import VirtualShell.Proofs.Alias.Resolution
import VirtualShell.Proofs.Alias.Written
import VirtualShell.Proofs.Builtin.Files
import VirtualShell.Proofs.Builtin.Frame
import VirtualShell.Proofs.Builtin.Lawful
import VirtualShell.Proofs.Builtin.Limits
import VirtualShell.Proofs.Builtin.Listing
import VirtualShell.Proofs.Builtin.Mkdir
import VirtualShell.Proofs.Builtin.Orderly
import VirtualShell.Proofs.Builtin.Returns
import VirtualShell.Proofs.Builtin.SortedLines
import VirtualShell.Proofs.Completion.CommonStart
import VirtualShell.Proofs.Completion.Context
import VirtualShell.Proofs.Completion.Paths
import VirtualShell.Proofs.Completion.Replacement
import VirtualShell.Proofs.Document.Atomic
import VirtualShell.Proofs.Document.Grammar
import VirtualShell.Proofs.Document.RoundTrip
import VirtualShell.Proofs.Document.Variables
import VirtualShell.Proofs.Environment
import VirtualShell.Proofs.Environment.References
import VirtualShell.Proofs.Execution.AndOr
import VirtualShell.Proofs.Execution.Calls
import VirtualShell.Proofs.Execution.Ceilings
import VirtualShell.Proofs.Execution.Confined
import VirtualShell.Proofs.Execution.ExitCodes
import VirtualShell.Proofs.Execution.Filters
import VirtualShell.Proofs.Execution.Lawful
import VirtualShell.Proofs.Execution.Messages
import VirtualShell.Proofs.Execution.Orderly
import VirtualShell.Proofs.Execution.OutputFile
import VirtualShell.Proofs.Execution.PrintedAliases
import VirtualShell.Proofs.Execution.Reached
import VirtualShell.Proofs.Execution.Runs
import VirtualShell.Proofs.Execution.Transparent
import VirtualShell.Proofs.Execution.ValidAliases
import VirtualShell.Proofs.Execution.VariableCeiling
import VirtualShell.Proofs.Json.Fraction
import VirtualShell.Proofs.Json.Number
import VirtualShell.Proofs.Json.RoundTrip
import VirtualShell.Proofs.Json.Text
import VirtualShell.Proofs.Line.Chain
import VirtualShell.Proofs.Line.LastOperator
import VirtualShell.Proofs.Line.Marks
import VirtualShell.Proofs.Line.Positions
import VirtualShell.Proofs.Line.Quoting
import VirtualShell.Proofs.Line.Redirection
import VirtualShell.Proofs.Line.Spacing
import VirtualShell.Proofs.Path
import VirtualShell.Proofs.Path.Resolution
import VirtualShell.Proofs.Result
import VirtualShell.Proofs.Result.EditorRequest
import VirtualShell.Proofs.Result.Grouping
import VirtualShell.Proofs.Script
import VirtualShell.Proofs.Script.Repeated
import VirtualShell.Proofs.Session.Change
import VirtualShell.Proofs.Session.Lawful
import VirtualShell.Proofs.Session.Laws
import VirtualShell.Proofs.Session.Settings
import VirtualShell.Proofs.Session.WholeTree
import VirtualShell.Proofs.Table
import VirtualShell.Proofs.Terminal.HistoryFile
import VirtualShell.Proofs.Terminal.Place
import VirtualShell.Proofs.Text.Base64
import VirtualShell.Proofs.Text.Blank
import VirtualShell.Proofs.Text.Digits
import VirtualShell.Proofs.Text.Lines
import VirtualShell.Proofs.Text.Runs
import VirtualShell.Proofs.Text.Sorted
import VirtualShell.Proofs.Time.RoundTrip
import VirtualShell.Proofs.Tree.Default
import VirtualShell.Proofs.Tree.Grammar
import VirtualShell.Proofs.Tree.Map
import VirtualShell.Proofs.Tree.Position
import VirtualShell.Proofs.Tree.RoundTrip
import VirtualShell.Proofs.Tree.Sound
import VirtualShell.Proofs.Tree.Update
import VirtualShell.Result
import VirtualShell.Script
import VirtualShell.Session
import VirtualShell.Table
import VirtualShell.Terminal.Conversation
import VirtualShell.Terminal.Display
import VirtualShell.Terminal.History
import VirtualShell.Terminal.Template
import VirtualShell.Text.Base64
import VirtualShell.Text.Blank
import VirtualShell.Text.Character
import VirtualShell.Text.LetterCase
import VirtualShell.Text.Number
import VirtualShell.Text.Quoted
import VirtualShell.Text.Split
import VirtualShell.Text.WordChar
import VirtualShell.Time.Calendar
import VirtualShell.Time.Reader
import VirtualShell.Time.Timestamp
import VirtualShell.Tree.Codec
import VirtualShell.Tree.Default
import VirtualShell.Tree.FileSystem
import VirtualShell.Tree.Node
