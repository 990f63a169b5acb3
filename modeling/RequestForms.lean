import RequestForms.Main
import RequestForms.Proofs.Chain
import RequestForms.Proofs.Collection.Credentials
import RequestForms.Proofs.Collection.Disabled
import RequestForms.Proofs.Collection.Folders
import RequestForms.Proofs.Collection.Nulls
import RequestForms.Proofs.Collection.Recognised
import RequestForms.Proofs.Collection.Refusal
import RequestForms.Proofs.Command.Address
import RequestForms.Proofs.Command.Arguments
import RequestForms.Proofs.Command.ContentType
import RequestForms.Proofs.Command.Effect
import RequestForms.Proofs.Command.Implied
import RequestForms.Proofs.Command.Items
import RequestForms.Proofs.Command.LastWins
import RequestForms.Proofs.Command.Layout
import RequestForms.Proofs.Command.Lines
import RequestForms.Proofs.Command.Order
import RequestForms.Proofs.Command.ProgramName
import RequestForms.Proofs.Command.Quoted
import RequestForms.Proofs.Command.RoundTrip
import RequestForms.Proofs.Command.Session
import RequestForms.Proofs.Command.Unquoted
import RequestForms.Proofs.CommandLine.Failure
import RequestForms.Proofs.CommandLine.Output
import RequestForms.Proofs.CommandLine.Source
import RequestForms.Proofs.CommandLine.Unquoted
import RequestForms.Proofs.Common
import RequestForms.Proofs.Format
import RequestForms.Proofs.Json.Document
import RequestForms.Proofs.Method
import RequestForms.Proofs.Request.Json
import RequestForms.Proofs.Request.Yaml
import RequestForms.Proofs.Shell.Bare
import RequestForms.Proofs.Shell.Conservation
import RequestForms.Proofs.Snippet.Axios
import RequestForms.Proofs.Snippet.Axios.JsonBody
import RequestForms.Proofs.Snippet.Fetch
import RequestForms.Proofs.Snippet.Fetch.Credentials
import RequestForms.Proofs.Snippet.Fetch.JsonBody
import RequestForms.Proofs.Snippet.Fetch.Members
import RequestForms.Proofs.Snippet.Headers
import RequestForms.Proofs.Snippet.Headers.Expressions
import RequestForms.Proofs.Snippet.InlinedBody
import RequestForms.Proofs.Snippet.LineBreaks
import RequestForms.Proofs.Snippet.Pattern
import RequestForms.Proofs.Snippet.StringBody
import RequestForms.Proofs.Snippet.StringLiterals
import RequestForms.Proofs.Snippet.StrippedBody
