import ServiceContract.Main
import ServiceContract.Proofs.Schema.Form
import ServiceContract.Proofs.Schema.Label
import ServiceContract.Proofs.Schema.Moves
import ServiceContract.Proofs.Session.Growth
import ServiceContract.Proofs.Schema.Again
import ServiceContract.Proofs.Schema.Mention
import ServiceContract.Proofs.Contract.Closure
import ServiceContract.Proofs.Contract.DeclarationOrder
import ServiceContract.Proofs.FreshName
import ServiceContract.Proofs.Schema.Name
import ServiceContract.Proofs.Document.Part
import ServiceContract.Proofs.Schema.Part
import ServiceContract.Proofs.Schema.Cover
import ServiceContract.Proofs.Schema.Complete
import ServiceContract.Proofs.Schema.Lag
import ServiceContract.Proofs.Operation.Part
import ServiceContract.Proofs.Operation.Parallel
import ServiceContract.Proofs.Operation.Complete
import ServiceContract.Proofs.Contract.PathOrder
import ServiceContract.Proofs.Document.Alike
import ServiceContract.Proofs.Document.Entry
import ServiceContract.Proofs.Document.WellFormed
import ServiceContract.Proofs.Document.Json
import ServiceContract.Proofs.Document.Yaml.Content
import ServiceContract.Proofs.Document.Yaml.Read
import ServiceContract.Proofs.Document.Load
import ServiceContract.Proofs.Document.Reordered
import ServiceContract.Proofs.Schema.Alike
import ServiceContract.Proofs.Operation.Alike
import ServiceContract.Proofs.Contract.Reordered
import ServiceContract.Proofs.Session.BuiltIn
import ServiceContract.Proofs.Schema.BuiltIn
import ServiceContract.Proofs.Operation.BuiltIn
import ServiceContract.Proofs.Contract.Target
import ServiceContract.Proofs.Document.Fault
import ServiceContract.Proofs.Schema.Fault
import ServiceContract.Proofs.Operation.Fault
import ServiceContract.Proofs.Operation.Failure
import ServiceContract.Proofs.Schema.InlineName
import ServiceContract.Proofs.Document.Subnode
import ServiceContract.Proofs.Schema.Acyclic
import ServiceContract.Proofs.Schema.Size
import ServiceContract.Proofs.Session.Budget
import ServiceContract.Proofs.Schema.Termination
import ServiceContract.Proofs.Naming
import ServiceContract.Proofs.Contract.Spelling
import ServiceContract.Proofs.Session.Invariant
import ServiceContract.Proofs.Contract.Endpoint
import ServiceContract.Proofs.Contract.Report
import ServiceContract.Proofs.Contract.Visit
import ServiceContract.Proofs.Document.Fuel
import ServiceContract.Proofs.Schema.Bound
import ServiceContract.Proofs.Document.Shared
import ServiceContract.Proofs.Schema.Shared
import ServiceContract.Proofs.Operation.Shared
import ServiceContract.Proofs.Contract.Edit
import ServiceContract.Proofs.Schema.Alias
import ServiceContract.Proofs.Schema.Contested
import ServiceContract.Proofs.Schema.Named
import ServiceContract.Proofs.CommandLine.Outcome
import ServiceContract.Proofs.Schema.Lineage
import ServiceContract.Proofs.Schema.Composition
import ServiceContract.Proofs.Contract.ResponseHandle
import ServiceContract.Proofs.Document.WithNull
import ServiceContract.Proofs.Document.Role
import ServiceContract.Proofs.Schema.WithNull
import ServiceContract.Proofs.Schema.AllowsNull
import ServiceContract.Proofs.Operation.AllowsNull
import ServiceContract.Proofs.Contract.Resize
import ServiceContract.Proofs.Contract.WithNull
import ServiceContract.Proofs.Schema.Spine
import ServiceContract.Proofs.Operation.ParameterName
import ServiceContract.Proofs.Operation.Parameter
import ServiceContract.Proofs.Operation.RequestBody
import ServiceContract.Proofs.Naming.Camel
import ServiceContract.Proofs.Contract.MethodName
import ServiceContract.Proofs.Contract.ParameterIdentifier
import ServiceContract.Proofs.Contract.FieldName
import ServiceContract.Proofs.Schema.StandsFor
import ServiceContract.Proofs.Schema.Required
import ServiceContract.Proofs.Schema.ValueType
import ServiceContract.Proofs.Operation.ValueType
import ServiceContract.Proofs.Contract.ValueType
import ServiceContract.Proofs.Text.Replace
import ServiceContract.Proofs.Emit.DocLine
import ServiceContract.Proofs.Document.Copy
import ServiceContract.Proofs.Schema.Primitive
import ServiceContract.Proofs.Operation.Extracted
import ServiceContract.Proofs.Text.Split
import ServiceContract.Proofs.Naming.Constant
import ServiceContract.Proofs.Schema.Enumeration
import ServiceContract.Proofs.Document.Reference
import ServiceContract.Proofs.Document.Pointer
import ServiceContract.Proofs.Document.Permuted
import ServiceContract.Proofs.Operation.Response
import ServiceContract.Proofs.Naming.Style
import ServiceContract.Proofs.Emit.TextLiteral
import ServiceContract.Proofs.Document.Chain
import ServiceContract.Proofs.FreshName.Search
