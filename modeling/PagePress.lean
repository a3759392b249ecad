import PagePress.Base64
import PagePress.Document.Codec
import PagePress.Document.Page
import PagePress.Health
import PagePress.Http.App
import PagePress.Http.MediaType
import PagePress.Http.Multipart
import PagePress.Http.Response
import PagePress.Http.Route
import PagePress.Http.Target
import PagePress.Json.Fault
import PagePress.Json.Printer
import PagePress.Json.Reader
import PagePress.Json.Record
import PagePress.Json.Value
import PagePress.Metrics
import PagePress.Numeral.Binary64
import PagePress.Numeral.Layout
import PagePress.Numeral.Read
import PagePress.Numeral.Shortest
import PagePress.Outcome.Code
import PagePress.Outcome.Envelope
import PagePress.Pipeline.Basic
import PagePress.Pipeline.Fault
import PagePress.Pipeline.Substitution
import PagePress.Proofs.Base64
import PagePress.Proofs.Chain
import PagePress.Proofs.Document.Classification
import PagePress.Proofs.Document.RoundTrip
import PagePress.Proofs.Json.Numbers
import PagePress.Proofs.Json.RoundTrip
import PagePress.Proofs.Json.Strings
import PagePress.Proofs.Numeral.Digits
import PagePress.Proofs.Numeral.Rounding
import PagePress.Proofs.Numeral.Shortest
import PagePress.Proofs.Pipeline.History
import PagePress.Proofs.Pipeline.StoredDocument
import PagePress.Proofs.Remote.Breaker
import PagePress.Proofs.Remote.Failures
import PagePress.Proofs.Remote.Recovery
import PagePress.Proofs.Remote.Trial
import PagePress.Proofs.Remote.Turn
import PagePress.Proofs.Remote.Waiting
import PagePress.Proofs.Renderer.NewDocument
import PagePress.Proofs.Store.Memory
import PagePress.Proofs.Template.Binding
import PagePress.Proofs.Template.Escaping
import PagePress.Proofs.Template.Output
import PagePress.Proofs.Template.Policy
import PagePress.Proofs.Template.Productions
import PagePress.Proofs.Template.Reach
import PagePress.Proofs.Template.Scoping
import PagePress.Proofs.Template.Trace
import PagePress.Proofs.Template.Triple
import PagePress.Proofs.Template.Variables
import PagePress.Proofs.Text.Utf8
import PagePress.Rehearsal.Renderer
import PagePress.Rehearsal.Server
import PagePress.Rehearsal.Session
import PagePress.Remote.Address
import PagePress.Remote.Breaker
import PagePress.Remote.Command
import PagePress.Remote.Link
import PagePress.Remote.Pool
import PagePress.Remote.Server
import PagePress.Renderer.Basic
import PagePress.Renderer.CommandLine
import PagePress.Renderer.Fault
import PagePress.Service
import PagePress.Settings.Basic
import PagePress.Settings.Reader
import PagePress.Settings.Start
import PagePress.Settings.Variable
import PagePress.Store.Basic
import PagePress.Store.Memory
import PagePress.Store.Remote
import PagePress.Template.Builtin
import PagePress.Template.Compiled
import PagePress.Template.Escape
import PagePress.Template.Exec
import PagePress.Template.Fault
import PagePress.Template.Format
import PagePress.Template.Lexer
import PagePress.Template.Literal
import PagePress.Template.Options
import PagePress.Template.Parser
import PagePress.Template.Printf
import PagePress.Template.Sink
import PagePress.Template.Token
import PagePress.Template.Tree
import PagePress.Text.Alphabetic
import PagePress.Text.Class
import PagePress.Text.Extender
import PagePress.Text.Numeric
import PagePress.Text.Printable
import PagePress.Text.Quoted
import PagePress.Text.Split
import PagePress.Text.Utf8
import PagePress.Url
import PagePress.Proofs.Json.Legible
import PagePress.Proofs.Json.Reordering
import PagePress.Proofs.Document.NormalForm
import PagePress.Proofs.Pipeline.Preservation
import PagePress.Proofs.Json.Depth
import PagePress.Proofs.Document.Built
import PagePress.Proofs.Remote.Circuit
import PagePress.Proofs.Store.Shelf
import PagePress.Proofs.Pipeline.Failure
import PagePress.Proofs.Renderer.HandOver
import PagePress.Proofs.Store.Remote
import PagePress.Proofs.Pipeline.Linearization
import PagePress.Proofs.Template.Canonical
import PagePress.Proofs.Template.Appended
import PagePress.Proofs.Template.Assignments
import PagePress.Proofs.Template.Iteration
import PagePress.Proofs.Template.Jumps
import PagePress.Proofs.Numeral.Nearest
import PagePress.Proofs.Template.Comparison
import PagePress.Proofs.Template.Verbs
import PagePress.Proofs.Template.Integers
import PagePress.Proofs.Template.Trimming
import PagePress.Proofs.Template.Comments
import PagePress.Proofs.Template.Delivery
import PagePress.Proofs.Template.Nesting
import PagePress.Proofs.Template.ErrorLines
import PagePress.Proofs.Text.Order
import PagePress.Proofs.Json.Shuffled
import PagePress.Proofs.Template.Shuffling
import PagePress.Proofs.Template.KeyOrder
import PagePress.Proofs.Template.Arguments
import PagePress.Proofs.Template.Formats
import PagePress.Proofs.Renderer.CommandLine
import PagePress.Proofs.Remote.Contacts
import PagePress.Proofs.Remote.Attempts
import PagePress.Proofs.Template.Unescaping
import PagePress.Proofs.Template.Padding
