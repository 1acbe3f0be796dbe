import EndpointTypings.CommandLine
import EndpointTypings.CommandLine.Completion
import EndpointTypings.CommandLine.Help
import EndpointTypings.Config
import EndpointTypings.Config.Document
import EndpointTypings.Config.File
import EndpointTypings.Descriptor
import EndpointTypings.Double
import EndpointTypings.Double.Shortest
import EndpointTypings.Entries
import EndpointTypings.Error
import EndpointTypings.Failure
import EndpointTypings.FileTree
import EndpointTypings.FileTree.Node
import EndpointTypings.FileTree.Walk
import EndpointTypings.Files
import EndpointTypings.Generate
import EndpointTypings.Interface
import EndpointTypings.Json
import EndpointTypings.Json.Fault
import EndpointTypings.Json.Number
import EndpointTypings.Json.Reader
import EndpointTypings.Json.Record
import EndpointTypings.Json.Writer
import EndpointTypings.Main
import EndpointTypings.Method
import EndpointTypings.Name
import EndpointTypings.Output
import EndpointTypings.Params
import EndpointTypings.Path
import EndpointTypings.Program
import EndpointTypings.Registry
import EndpointTypings.Registry.Document
import EndpointTypings.Registry.Source
import EndpointTypings.Report
import EndpointTypings.Template
import EndpointTypings.Text.Blank
import EndpointTypings.Text.Pieces
import EndpointTypings.Text.Position
import EndpointTypings.Text.Printed
import EndpointTypings.Toml.Excerpt
import EndpointTypings.Toml.Reader
import EndpointTypings.Toml.Scalar
import EndpointTypings.Toml.Text
import EndpointTypings.Toml.Token
import EndpointTypings.Toml.Tree
import EndpointTypings.Toml.Value
import EndpointTypings.Toml.Writer
import EndpointTypings.Proofs.FileTree.Written
import EndpointTypings.Proofs.FileTree.Looking
import EndpointTypings.Proofs.FileTree.Growth
import EndpointTypings.Proofs.Output.Effects
import EndpointTypings.Proofs.Generate.Stages
import EndpointTypings.Proofs.Generate.Modes
import EndpointTypings.Proofs.Generate.Failures
import EndpointTypings.Proofs.Generate.Effects
import EndpointTypings.Proofs.Generate.Again
import EndpointTypings.Proofs.Generate.Summary
import EndpointTypings.Proofs.Program.ExitCode
import EndpointTypings.Proofs.Entries
import EndpointTypings.Proofs.Json.Integers
import EndpointTypings.Proofs.Json.Verbatim
import EndpointTypings.Proofs.Json.Numbers
import EndpointTypings.Proofs.Json.Strings
import EndpointTypings.Proofs.Json.Lists
import EndpointTypings.Proofs.Json.Values
import EndpointTypings.Proofs.Json.Distinct
import EndpointTypings.Proofs.Json.Record
import EndpointTypings.Proofs.Descriptor.Shape
import EndpointTypings.Proofs.Registry.Document
import EndpointTypings.Proofs.Json.Written
import EndpointTypings.Proofs.Registry.RoundTrip
import EndpointTypings.Proofs.Registry.Repeated
import EndpointTypings.Proofs.Descriptor.Alike
import EndpointTypings.Proofs.Registry.Alike
import EndpointTypings.Proofs.Json.Violation
import EndpointTypings.Proofs.Json.Place
import EndpointTypings.Proofs.Descriptor.Violation
import EndpointTypings.Proofs.Registry.FirstViolation
import EndpointTypings.Proofs.Interface.Document
import EndpointTypings.Proofs.Interface.Header
import EndpointTypings.Proofs.Path.Components
import EndpointTypings.Proofs.Path.Joined
import EndpointTypings.Proofs.FileTree.LinkFree
import EndpointTypings.Proofs.FileTree.Search
import EndpointTypings.Proofs.Interface.Edited
import EndpointTypings.Proofs.Registry.Truncated
import EndpointTypings.Proofs.Interface.Comment
import EndpointTypings.Proofs.Toml.Distinct
import EndpointTypings.Proofs.Config.Document
import EndpointTypings.Proofs.Generate.Layers
import EndpointTypings.Proofs.FileTree.Visits
import EndpointTypings.Proofs.Params
import EndpointTypings.Proofs.Registry.Inserted
import EndpointTypings.Proofs.Config.Written
import EndpointTypings.Proofs.Registry.Discovered
import EndpointTypings.Proofs.Template.Contexts
import EndpointTypings.Name.Kind
import EndpointTypings.Proofs.Name
import EndpointTypings.Proofs.Output.Resolved
import EndpointTypings.Proofs.FileTree.Fewer
import EndpointTypings.Proofs.Output.History
import EndpointTypings.Proofs.Json.Compact
import EndpointTypings.Proofs.Report
