import LanguageClient.Client.Basic
import LanguageClient.Client.Handshake
import LanguageClient.CommandLine.Grammar
import LanguageClient.CommandLine.Invocation
import LanguageClient.CommandLine.Run
import LanguageClient.Config.Basic
import LanguageClient.Config.Load
import LanguageClient.Console.Block
import LanguageClient.Console.Markup
import LanguageClient.Console.Plain
import LanguageClient.Console.Report
import LanguageClient.Fault
import LanguageClient.Files
import LanguageClient.Fleet
import LanguageClient.Frame.Buffer
import LanguageClient.Frame.Header
import LanguageClient.Host
import LanguageClient.Journal
import LanguageClient.Json.Basic
import LanguageClient.Json.Parser
import LanguageClient.Json.Printer
import LanguageClient.Logging
import LanguageClient.Main
import LanguageClient.Number.Binary64
import LanguageClient.Number.Decimal
import LanguageClient.Number.Reading
import LanguageClient.Path
import LanguageClient.Peer
import LanguageClient.Process.Child
import LanguageClient.Process.Supervision
import LanguageClient.Process.Tool
import LanguageClient.Proofs.Attempt
import LanguageClient.Proofs.Client.Calls
import LanguageClient.Proofs.Client.Correlation
import LanguageClient.Proofs.Client.Custody
import LanguageClient.Proofs.Client.Documents
import LanguageClient.Proofs.Client.Failures
import LanguageClient.Proofs.Client.Guards
import LanguageClient.Proofs.Client.Handshake
import LanguageClient.Proofs.Client.History
import LanguageClient.Proofs.Client.Ids
import LanguageClient.Proofs.Client.Image
import LanguageClient.Proofs.Client.LastWords
import LanguageClient.Proofs.Client.Lifecycle
import LanguageClient.Proofs.Client.Operations
import LanguageClient.Proofs.Client.Phases
import LanguageClient.Proofs.Client.Readiness
import LanguageClient.Proofs.Client.Requests
import LanguageClient.Proofs.Client.Routing
import LanguageClient.Proofs.Client.Subjects
import LanguageClient.Proofs.Client.Totality
import LanguageClient.Proofs.Client.Tracing
import LanguageClient.Proofs.CommandLine.Answer
import LanguageClient.Proofs.CommandLine.Ending
import LanguageClient.Proofs.CommandLine.Places
import LanguageClient.Proofs.CommandLine.Waiting
import LanguageClient.Proofs.Config.Environment
import LanguageClient.Proofs.Config.Extensions
import LanguageClient.Proofs.Config.Load
import LanguageClient.Proofs.Config.Settings
import LanguageClient.Proofs.Config.Validation
import LanguageClient.Proofs.Files
import LanguageClient.Proofs.Fleet.Accounts
import LanguageClient.Proofs.Fleet.History
import LanguageClient.Proofs.Fleet.Image
import LanguageClient.Proofs.Fleet.Isolation
import LanguageClient.Proofs.Fleet.Keeping
import LanguageClient.Proofs.Fleet.Launched
import LanguageClient.Proofs.Fleet.Moves
import LanguageClient.Proofs.Fleet.Operations
import LanguageClient.Proofs.Fleet.Outlook
import LanguageClient.Proofs.Fleet.Ownership
import LanguageClient.Proofs.Fleet.Rounds
import LanguageClient.Proofs.Fleet.Sharing
import LanguageClient.Proofs.Fleet.Start
import LanguageClient.Proofs.Fleet.Tables
import LanguageClient.Proofs.Fleet.Uniqueness
import LanguageClient.Proofs.Frame.Header
import LanguageClient.Proofs.Frame.Lines
import LanguageClient.Proofs.Frame.Parts
import LanguageClient.Proofs.Json.Members
import LanguageClient.Proofs.Json.Printed
import LanguageClient.Proofs.Json.ReadBack
import LanguageClient.Proofs.Json.TextReadBack
import LanguageClient.Proofs.Logging
import LanguageClient.Proofs.Number.Integer
import LanguageClient.Proofs.Number.Place
import LanguageClient.Proofs.Number.Range
import LanguageClient.Proofs.Number.Reading
import LanguageClient.Proofs.Number.Rounding
import LanguageClient.Proofs.Number.Shortest
import LanguageClient.Proofs.Path.Normal
import LanguageClient.Proofs.Protocol.Decoding
import LanguageClient.Proofs.Protocol.Encoding
import LanguageClient.Proofs.Protocol.Fields
import LanguageClient.Proofs.Protocol.HoverLines
import LanguageClient.Proofs.Protocol.Numbers
import LanguageClient.Proofs.Protocol.Records
import LanguageClient.Proofs.Rpc.Cycles
import LanguageClient.Proofs.Rpc.Delivery
import LanguageClient.Proofs.Rpc.Exchange
import LanguageClient.Proofs.Rpc.History
import LanguageClient.Proofs.Rpc.Image
import LanguageClient.Proofs.Rpc.Progress
import LanguageClient.Proofs.Rpc.Reading
import LanguageClient.Proofs.Rpc.Segments
import LanguageClient.Proofs.Rpc.StrayOutput
import LanguageClient.Proofs.Rpc.Tracing
import LanguageClient.Proofs.Rpc.Traffic
import LanguageClient.Proofs.Rpc.Turns
import LanguageClient.Proofs.Rpc.Waiting
import LanguageClient.Proofs.Rpc.Watched
import LanguageClient.Proofs.Schema.Admission
import LanguageClient.Proofs.Schema.Findings
import LanguageClient.Proofs.Stopping
import LanguageClient.Proofs.Text.Ascii
import LanguageClient.Proofs.Text.Cut
import LanguageClient.Proofs.Text.Name
import LanguageClient.Proofs.Text.Stream
import LanguageClient.Proofs.Trace
import LanguageClient.Proofs.Trace.ReadBack
import LanguageClient.Proofs.Uri.RoundTrip
import LanguageClient.Proofs.Yaml.Blocks
import LanguageClient.Proofs.Yaml.Characters
import LanguageClient.Proofs.Yaml.Cursor
import LanguageClient.Proofs.Yaml.Documents
import LanguageClient.Proofs.Yaml.DoubleQuoted
import LanguageClient.Proofs.Yaml.Layout
import LanguageClient.Proofs.Yaml.Marks
import LanguageClient.Proofs.Yaml.Nodes
import LanguageClient.Proofs.Yaml.Numbers
import LanguageClient.Proofs.Yaml.Plain
import LanguageClient.Proofs.Yaml.ScalarTokens
import LanguageClient.Proofs.Yaml.SingleQuoted
import LanguageClient.Proofs.Yaml.Texts
import LanguageClient.Proofs.Yaml.Tokens
import LanguageClient.Proofs.Yaml.Values
import LanguageClient.Protocol.HoverText
import LanguageClient.Protocol.Inbound
import LanguageClient.Protocol.Message
import LanguageClient.Protocol.Payload
import LanguageClient.Protocol.Record
import LanguageClient.Protocol.Severity
import LanguageClient.Protocol.Shape
import LanguageClient.Rpc.Connection
import LanguageClient.Rpc.Exchange
import LanguageClient.Schema.Basic
import LanguageClient.Schema.Violation
import LanguageClient.Script.Child
import LanguageClient.Script.Host
import LanguageClient.Script.Reader
import LanguageClient.Script.Server
import LanguageClient.Session
import LanguageClient.Surroundings
import LanguageClient.SystemError
import LanguageClient.Text.Blank
import LanguageClient.Text.Case
import LanguageClient.Text.CodePoint
import LanguageClient.Text.Digit
import LanguageClient.Text.Lines
import LanguageClient.Text.Printable
import LanguageClient.Text.Quoted
import LanguageClient.Text.Ranges
import LanguageClient.Text.Utf8
import LanguageClient.Trace
import LanguageClient.Uri.File
import LanguageClient.Uri.Host
import LanguageClient.Yaml.Cursor
import LanguageClient.Yaml.Document
import LanguageClient.Yaml.Moment
import LanguageClient.Yaml.Node
import LanguageClient.Yaml.Printer
import LanguageClient.Yaml.Resolution
import LanguageClient.Yaml.Scalar
import LanguageClient.Yaml.Token
import LanguageClient.Yaml.Value
