import Arazzo.Cli.Arguments
import Arazzo.Cli.Execute
import Arazzo.Cli.Inspect
import Arazzo.Cli.Outcome
import Arazzo.Component
import Arazzo.Condition
import Arazzo.Config
import Arazzo.Context
import Arazzo.Criterion
import Arazzo.Decimal.Binary
import Arazzo.Decimal.Plain
import Arazzo.Decimal.Shortest
import Arazzo.Diagnostic
import Arazzo.Document.Basic
import Arazzo.Document.Checked
import Arazzo.Document.Reader
import Arazzo.Document.Writer
import Arazzo.Duration
import Arazzo.Expression
import Arazzo.FilePath
import Arazzo.Files
import Arazzo.Format
import Arazzo.Http
import Arazzo.HttpDate
import Arazzo.Json.Basic
import Arazzo.Json.Reader
import Arazzo.Json.Writer
import Arazzo.JsonPath.Basic
import Arazzo.JsonPath.Reader
import Arazzo.Location
import Arazzo.Main
import Arazzo.OpenApi.Basic
import Arazzo.OpenApi.Lookup
import Arazzo.OpenApi.Operation
import Arazzo.OpenApi.Ref
import Arazzo.Place
import Arazzo.Pointer
import Arazzo.Regex.Basic
import Arazzo.Regex.Class
import Arazzo.Regex.Reader
import Arazzo.Replacement
import Arazzo.Request
import Arazzo.Resolver
import Arazzo.RetryDelay
import Arazzo.Run
import Arazzo.Run.Action
import Arazzo.Run.Basic
import Arazzo.Run.Inputs
import Arazzo.Run.State
import Arazzo.Run.Step
import Arazzo.Run.Workflow
import Arazzo.Sources.Basic
import Arazzo.Sources.Loader
import Arazzo.Table
import Arazzo.Template
import Arazzo.Text.Blank
import Arazzo.Text.Case
import Arazzo.Text.Category
import Arazzo.Text.CharSet
import Arazzo.Text.Letters
import Arazzo.Text.Reason
import Arazzo.Text.Scan
import Arazzo.Text.Script
import Arazzo.Text.Utf8
import Arazzo.Trace
import Arazzo.Url.Basic
import Arazzo.Url.Host
import Arazzo.Url.Percent
import Arazzo.Url.Punycode
import Arazzo.Url.Reader
import Arazzo.Validation.Basic
import Arazzo.Validation.Document
import Arazzo.Validation.Parts
import Arazzo.XPath.Basic
import Arazzo.XPath.Reader
import Arazzo.Xml.Basic
import Arazzo.Xml.Reader
import Arazzo.Yaml.Lexer
import Arazzo.Yaml.Node
import Arazzo.Yaml.Scalar
import Arazzo.Yaml.Token
import Arazzo.Yaml.Value
import Arazzo.Proofs.Leads
import Arazzo.Proofs.Table
import Arazzo.Proofs.Text
import Arazzo.Proofs.Registry
import Arazzo.Proofs.Run.Step
import Arazzo.Proofs.Run.Moves
import Arazzo.Proofs.Run.Passage
import Arazzo.Proofs.Run.Dependencies
import Arazzo.Proofs.Run.Budget
import Arazzo.Proofs.Run.Events
import Arazzo.Proofs.Run.Bound
import Arazzo.Proofs.Run.Termination
import Arazzo.Proofs.Resolver.Memory
import Arazzo.Proofs.Resolver.Reading
import Arazzo.Proofs.Condition.Outline
import Arazzo.Proofs.Condition.Grammar
import Arazzo.Proofs.Condition.Operands
import Arazzo.Proofs.Validation
import Arazzo.Proofs.OpenApi.OperationPath
import Arazzo.Proofs.Run.Faults
import Arazzo.Proofs.Run.Validated
import Arazzo.Proofs.Run.Goto
import Arazzo.Proofs.Decimal.Whole
import Arazzo.Proofs.Document.Written
import Arazzo.Proofs.Document.Members
import Arazzo.Proofs.Document.Parts
import Arazzo.Proofs.Document.RoundTrip
import Arazzo.Proofs.Document.Legible
import Arazzo.Proofs.Run.Reading
import Arazzo.Proofs.Sources.Chain
import Arazzo.Proofs.Sources.Cycles
import Arazzo.Proofs.Run.Visits
import Arazzo.Proofs.Run.Calls
import Arazzo.Proofs.Run.Retries
import Arazzo.Proofs.Run.Deadline
import Arazzo.Proofs.Resolver.Outputs
import Arazzo.Proofs.Resolver.Frame
import Arazzo.Proofs.Run.Outputs
import Arazzo.Proofs.Run.ReadBack
import Arazzo.Proofs.Document.Placeless
import Arazzo.Proofs.Document.Origins
import Arazzo.Proofs.Document.Located
import Arazzo.Proofs.Document.Version
import Arazzo.Proofs.Document.Objects
import Arazzo.Proofs.Document.Exchange
import Arazzo.Proofs.Document.Fields
import Arazzo.Proofs.Document.Tolerance
import Arazzo.Proofs.Run.Attempts
import Arazzo.Proofs.Run.Scheduled
import Arazzo.Proofs.Run.Failure
import Arazzo.Proofs.Run.Waits
import Arazzo.Proofs.Text.Replace
import Arazzo.Proofs.Pointer
import Arazzo.Proofs.OpenApi.Lookup
import Arazzo.Proofs.Request.ContentType
import Arazzo.Proofs.Url.Percent
import Arazzo.Proofs.Url.Path
import Arazzo.Proofs.Request.Template
import Arazzo.Proofs.Request.Path
import Arazzo.Proofs.Request.Parameters
import Arazzo.Proofs.Url.Authority
import Arazzo.Proofs.Request.Port
import Arazzo.Proofs.Pointer.Assign
import Arazzo.Proofs.OpenApi.Qualified
import Arazzo.Proofs.OpenApi.PathGrammar
import Arazzo.Proofs.Json.Ordered
import Arazzo.Proofs.Json.Edited
import Arazzo.Proofs.Text.Digits
import Arazzo.Proofs.Pointer.Positions
import Arazzo.Proofs.Pointer.ReadBack
import Arazzo.Proofs.Pointer.Missing
import Arazzo.Proofs.JsonPath.Nodes
import Arazzo.Proofs.Replacement
import Arazzo.Proofs.Text.Utf8
import Arazzo.Proofs.Json.Quoted
import Arazzo.Proofs.Template
import Arazzo.Proofs.Resolver.Parts
import Arazzo.Proofs.Request.Payload
import Arazzo.Proofs.Component
import Arazzo.Proofs.Resolver.Values
import Arazzo.Proofs.Expression
import Arazzo.Proofs.Resolver.Unknown
import Arazzo.Proofs.JsonPath.Keys
import Arazzo.Proofs.Resolver.Body
import Arazzo.Proofs.Decimal.Nearest
import Arazzo.Proofs.Decimal.Rounded
import Arazzo.Proofs.Decimal.Spelling
import Arazzo.Proofs.Comparison
import Arazzo.Proofs.RetryDelay
import Arazzo.Proofs.Regex.Classes
import Arazzo.Proofs.Regex.Items
import Arazzo.Proofs.Regex.Marks
import Arazzo.Proofs.Regex.Matching
import Arazzo.Proofs.Regex.Patterns
import Arazzo.Proofs.Regex.Steps
import Arazzo.Proofs.Regex.Whole
import Arazzo.Proofs.Request.Filling
import Arazzo.Proofs.Run.Inputs
import Arazzo.Proofs.Run.Completions
import Arazzo.Proofs.Run.Growth
import Arazzo.Proofs.Run.Lasting
import Arazzo.Proofs.Run.Dependents
import Arazzo.Proofs.Sources.Overrides
import Arazzo.Proofs.Condition.Parts
import Arazzo.Proofs.OpenApi.References
import Arazzo.Proofs.Sources.Rejected
