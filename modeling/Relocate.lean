import Relocate.Command.Move
import Relocate.Command.MoveModule
import Relocate.Command.ShowImports
import Relocate.CommandLine.Execute
import Relocate.CommandLine.Grammar
import Relocate.CommandLine.Reader
import Relocate.Failure
import Relocate.Files.Create
import Relocate.Files.FileSystem
import Relocate.Files.Script
import Relocate.Host
import Relocate.Imports
import Relocate.Interpreter.Attempt
import Relocate.Interpreter.Discovery
import Relocate.Interpreter.Probe
import Relocate.Interpreter.Version
import Relocate.Json.Numeral
import Relocate.Json.Reader
import Relocate.Json.Record
import Relocate.Json.Token
import Relocate.Json.Value
import Relocate.Json.Writer
import Relocate.Log.Entry
import Relocate.Log.Filter
import Relocate.Main
import Relocate.Number.Binary64
import Relocate.Number.Natural
import Relocate.Number.Shortest
import Relocate.Path
import Relocate.Project.Place
import Relocate.Prompt
import Relocate.Report
import Relocate.Run
import Relocate.Session.Basic
import Relocate.Session.Engine
import Relocate.Session.Scripted
import Relocate.Session.Surroundings
import Relocate.Settings
import Relocate.Source.CharIndex
import Relocate.Source.Encoding
import Relocate.SystemError
import Relocate.Text.Blank
import Relocate.Text.Hidden
import Relocate.Text.Line
import Relocate.Text.Quoted
import Relocate.Text.Split
import Relocate.Text.Unstyled
import Relocate.Text.Utf8
import Relocate.Text.Utf8.RoundTrip
import Relocate.Text.Word
import Relocate.Toml.Document
import Relocate.Toml.Moment
import Relocate.Toml.Number
import Relocate.Toml.Reader
import Relocate.Toml.Scan
import Relocate.Toml.Text
import Relocate.Toml.Value
import Relocate.Worker.Data
import Relocate.Worker.Error
import Relocate.Worker.Link
import Relocate.Worker.Message
import Relocate.Worker.Operations
import Relocate.Worker.Pipes
import Relocate.Proofs.Execution
import Relocate.Proofs.Journal
import Relocate.Proofs.Worker.Exchange
import Relocate.Proofs.Worker.Calls
import Relocate.Proofs.Worker.Transcript
import Relocate.Proofs.Command.Rules
import Relocate.Proofs.Command.Course
import Relocate.Proofs.Command.Orderly
import Relocate.Proofs.Command.Moves
import Relocate.Proofs.Source.Offset
import Relocate.Proofs.Json.Fields
import Relocate.Proofs.Worker.Talk
import Relocate.Proofs.Session.Voice
import Relocate.Proofs.Worker.Start
import Relocate.Proofs.Session.Carried
import Relocate.Proofs.Session.Dialogue
import Relocate.Proofs.Session.Opening
import Relocate.Proofs.Imports
import Relocate.Proofs.Command.Listing
import Relocate.Proofs.CommandLine.Conversation
import Relocate.Proofs.Files.Spelling
import Relocate.Proofs.Files.Canonical
import Relocate.Proofs.Project.Resolution
import Relocate.Proofs.Files.Lexical
import Relocate.Proofs.Files.Links
import Relocate.Proofs.Project.Anchoring
import Relocate.Proofs.Project.Containment
import Relocate.Proofs.Project.Existing
import Relocate.Proofs.Files.Growth
import Relocate.Proofs.Project.Creation
import Relocate.Proofs.Command.Destination
import Relocate.Proofs.Command.Telling
import Relocate.Proofs.Interpreter.Selection
import Relocate.Proofs.Worker.Status
import Relocate.Proofs.CommandLine.Success
import Relocate.Proofs.Worker.Lifecycle
import Relocate.Proofs.Text.Lines
import Relocate.Proofs.Worker.Noise
import Relocate.Proofs.Command.Prompting
import Relocate.Proofs.Session.Fault
import Relocate.Proofs.Command.Blame
import Relocate.Proofs.CommandLine.Upshot
import Relocate.Proofs.CommandLine.Fault
import Relocate.Proofs.Source.Declaration
import Relocate.Proofs.Source.Multibyte
import Relocate.Proofs.Source.UnixLines
import Relocate.Proofs.Source.Reading
import Relocate.Proofs.Source.Cut
import Relocate.Proofs.Source.Position
import Relocate.Proofs.Source.Bounds
import Relocate.Proofs.Interpreter.Trace
import Relocate.Proofs.Interpreter.Identity
import Relocate.Proofs.Number.Natural
import Relocate.Proofs.Text.Trim
import Relocate.Proofs.Prompt
import Relocate.Proofs.Json.Numeral
import Relocate.Proofs.Json.Token
import Relocate.Proofs.Json.Tree
import Relocate.Proofs.Json.Unambiguous
import Relocate.Proofs.Json.Settled
import Relocate.Proofs.Json.Written
import Relocate.Proofs.Worker.Message
import Relocate.Proofs.Worker.Framing
import Relocate.Proofs.Worker.Greeting
import Relocate.Proofs.Worker.Twins
import Relocate.Proofs.Interpreter.VersionGrammar
import Relocate.Proofs.Interpreter.VersionText
import Relocate.Proofs.Interpreter.Working
import Relocate.Proofs.Session.Steady
import Relocate.Proofs.CommandLine.Farewell
