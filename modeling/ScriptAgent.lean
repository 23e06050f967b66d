import ScriptAgent.Agent
import ScriptAgent.Agent.Loop
import ScriptAgent.Agent.Prompt
import ScriptAgent.Agent.Steps
import ScriptAgent.Answer
import ScriptAgent.Client
import ScriptAgent.CommandLine
import ScriptAgent.CommandLine.Options
import ScriptAgent.Conversation
import ScriptAgent.Datum
import ScriptAgent.Decimal.Binary
import ScriptAgent.Decimal.Fixed
import ScriptAgent.Decimal.Shortest
import ScriptAgent.Exchange.Decode
import ScriptAgent.Exchange.Encode
import ScriptAgent.Http.Client
import ScriptAgent.Http.Content
import ScriptAgent.Http.Message
import ScriptAgent.Http.Status
import ScriptAgent.Http.Url
import ScriptAgent.Json.Encoded
import ScriptAgent.Json.Reader
import ScriptAgent.Json.Writer
import ScriptAgent.Main
import ScriptAgent.Model.Generated
import ScriptAgent.Model.Hosted
import ScriptAgent.Model.Ollama
import ScriptAgent.Model.Provider
import ScriptAgent.Model.Scripted
import ScriptAgent.Proofs.Agent.Endings
import ScriptAgent.Proofs.Agent.History
import ScriptAgent.Proofs.Agent.Prompts
import ScriptAgent.Proofs.Agent.Rejections
import ScriptAgent.Proofs.Agent.Steps
import ScriptAgent.Proofs.Agent.Surroundings
import ScriptAgent.Proofs.Agent.Trace
import ScriptAgent.Proofs.Client.Attempts
import ScriptAgent.Proofs.Client.Reports
import ScriptAgent.Proofs.Client.Schedule
import ScriptAgent.Proofs.CommandLine.Exits
import ScriptAgent.Proofs.CommandLine.Requests
import ScriptAgent.Proofs.Datum.Plain
import ScriptAgent.Proofs.Datum.Same
import ScriptAgent.Proofs.Decimal.Bits
import ScriptAgent.Proofs.Decimal.Rounding
import ScriptAgent.Proofs.Decimal.Shortest
import ScriptAgent.Proofs.Exchange.Copy
import ScriptAgent.Proofs.Exchange.Data
import ScriptAgent.Proofs.Exchange.Decode
import ScriptAgent.Proofs.Exchange.Encode
import ScriptAgent.Proofs.Exchange.Entries
import ScriptAgent.Proofs.Exchange.Holdable
import ScriptAgent.Proofs.Exchange.Image
import ScriptAgent.Proofs.Exchange.Keys
import ScriptAgent.Proofs.Exchange.RoundTrip
import ScriptAgent.Proofs.Exchange.Sequence
import ScriptAgent.Proofs.Exchange.Structured
import ScriptAgent.Proofs.Exchange.Unfold
import ScriptAgent.Proofs.Fallible
import ScriptAgent.Proofs.Http.Exchange
import ScriptAgent.Proofs.Http.Redirects
import ScriptAgent.Proofs.Http.Requests
import ScriptAgent.Proofs.Json.Encoded
import ScriptAgent.Proofs.Json.Numbers
import ScriptAgent.Proofs.Json.Readable
import ScriptAgent.Proofs.Json.Reading
import ScriptAgent.Proofs.Json.RoundTrip
import ScriptAgent.Proofs.Json.Sorted
import ScriptAgent.Proofs.Json.Strings
import ScriptAgent.Proofs.Json.Writable
import ScriptAgent.Proofs.Model.Failures
import ScriptAgent.Proofs.Reply.Blocks
import ScriptAgent.Proofs.Reply.InfoWords
import ScriptAgent.Proofs.Sandbox.Access
import ScriptAgent.Proofs.Sandbox.Answers
import ScriptAgent.Proofs.Sandbox.Bindable
import ScriptAgent.Proofs.Sandbox.Binding
import ScriptAgent.Proofs.Sandbox.Classification
import ScriptAgent.Proofs.Sandbox.Echo
import ScriptAgent.Proofs.Sandbox.Execute
import ScriptAgent.Proofs.Sandbox.Globals
import ScriptAgent.Proofs.Sandbox.HeapInvariant
import ScriptAgent.Proofs.Sandbox.JsonTexts
import ScriptAgent.Proofs.Sandbox.JsonTools
import ScriptAgent.Proofs.Sandbox.Lookup
import ScriptAgent.Proofs.Sandbox.Naming
import ScriptAgent.Proofs.Sandbox.Output
import ScriptAgent.Proofs.Sandbox.Place
import ScriptAgent.Proofs.Sandbox.Printed
import ScriptAgent.Proofs.Sandbox.Rebinding
import ScriptAgent.Proofs.Sandbox.Registered
import ScriptAgent.Proofs.Sandbox.Renewal
import ScriptAgent.Proofs.Sandbox.Reserved
import ScriptAgent.Proofs.Sandbox.Rewrites
import ScriptAgent.Proofs.Sandbox.Scopes
import ScriptAgent.Proofs.Sandbox.Setup
import ScriptAgent.Proofs.Sandbox.Surroundings
import ScriptAgent.Proofs.Sandbox.ToolCall
import ScriptAgent.Proofs.Sandbox.Tree
import ScriptAgent.Proofs.Sandbox.Unreadable
import ScriptAgent.Proofs.Sandbox.Web
import ScriptAgent.Proofs.Sandbox.Wrappers
import ScriptAgent.Proofs.Script.Evaluation
import ScriptAgent.Proofs.Script.Heap
import ScriptAgent.Proofs.Script.Initial
import ScriptAgent.Proofs.Script.Path
import ScriptAgent.Proofs.Script.Performing
import ScriptAgent.Proofs.Script.Printing
import ScriptAgent.Proofs.Script.Restack
import ScriptAgent.Proofs.Script.Stack
import ScriptAgent.Proofs.Script.Stores
import ScriptAgent.Proofs.Script.Table
import ScriptAgent.Proofs.Service.Alone
import ScriptAgent.Proofs.Service.Interference
import ScriptAgent.Proofs.Service.Interleaving
import ScriptAgent.Proofs.Service.Leftovers
import ScriptAgent.Proofs.Service.Locks
import ScriptAgent.Proofs.Service.Logs
import ScriptAgent.Proofs.Service.Progress
import ScriptAgent.Proofs.Service.Refinement
import ScriptAgent.Proofs.Service.Requests
import ScriptAgent.Proofs.Service.Store
import ScriptAgent.Proofs.Service.Threads
import ScriptAgent.Proofs.Service.Ties
import ScriptAgent.Proofs.Shell.Tasks
import ScriptAgent.Proofs.Text.Bytes
import ScriptAgent.Proofs.Text.Lines
import ScriptAgent.Proofs.Text.Numeral
import ScriptAgent.Proofs.Text.Order
import ScriptAgent.Proofs.Text.Pattern
import ScriptAgent.Proofs.Tool.Documentation
import ScriptAgent.Proofs.Tool.Parameters
import ScriptAgent.Proofs.Tool.Registry
import ScriptAgent.Proofs.Tool.Unions
import ScriptAgent.Reply
import ScriptAgent.Sandbox
import ScriptAgent.Sandbox.Names
import ScriptAgent.Sandbox.Report
import ScriptAgent.Sandbox.Run
import ScriptAgent.Schema
import ScriptAgent.Script.Globals
import ScriptAgent.Script.Library
import ScriptAgent.Script.Library.Argument
import ScriptAgent.Script.Library.Arithmetic
import ScriptAgent.Script.Library.Base
import ScriptAgent.Script.Library.Clock
import ScriptAgent.Script.Library.Control
import ScriptAgent.Script.Library.Coroutine
import ScriptAgent.Script.Library.Format
import ScriptAgent.Script.Library.Pattern
import ScriptAgent.Script.Library.Sequence
import ScriptAgent.Script.Library.Text
import ScriptAgent.Script.Library.Unicode
import ScriptAgent.Script.Machine
import ScriptAgent.Script.Machine.Basic
import ScriptAgent.Script.Machine.Call
import ScriptAgent.Script.Machine.Expression
import ScriptAgent.Script.Machine.Reply
import ScriptAgent.Script.Machine.Statement
import ScriptAgent.Script.Machine.Unwind
import ScriptAgent.Script.Number
import ScriptAgent.Script.Operation
import ScriptAgent.Script.Parser
import ScriptAgent.Script.Program
import ScriptAgent.Script.Random
import ScriptAgent.Script.State
import ScriptAgent.Script.Table
import ScriptAgent.Script.Token
import ScriptAgent.Script.Tree
import ScriptAgent.Script.Value
import ScriptAgent.Service
import ScriptAgent.Service.Body
import ScriptAgent.Service.Route
import ScriptAgent.Service.Store
import ScriptAgent.Settings
import ScriptAgent.Shell
import ScriptAgent.Terminal
import ScriptAgent.Text.Base64
import ScriptAgent.Text.Blank
import ScriptAgent.Text.Bytes
import ScriptAgent.Text.Charset
import ScriptAgent.Text.Classes
import ScriptAgent.Text.Numeral
import ScriptAgent.Text.Pattern
import ScriptAgent.Text.Quoted
import ScriptAgent.Text.Search
import ScriptAgent.Tool
import ScriptAgent.Tool.Arithmetic
import ScriptAgent.Tool.Bundled
import ScriptAgent.Tool.DeclaredType
import ScriptAgent.Tool.Documentation
import ScriptAgent.Tool.Function
import ScriptAgent.Tool.Registry
import ScriptAgent.Tool.Signature
import ScriptAgent.Tool.Web
import ScriptAgent.Validation
import ScriptAgent.Validation.Number
import ScriptAgent.World
