import SchemaSummary.Disk.Basic
import SchemaSummary.Main
import SchemaSummary.Proofs.Document.Flattening
import SchemaSummary.Proofs.Generation.Locality
import SchemaSummary.Proofs.Text.Cuts
import SchemaSummary.Proofs.Text.Blanks
import SchemaSummary.Proofs.Generation.Parameter
import SchemaSummary.Proofs.Generation.Configuration
import SchemaSummary.Proofs.Generation.Failure
import SchemaSummary.Proofs.Generation.OutputNames
import SchemaSummary.Proofs.Yaml.Lines
import SchemaSummary.Proofs.Yaml.Pieces
import SchemaSummary.Proofs.Yaml.Plain
import SchemaSummary.Proofs.Yaml.Quoted
import SchemaSummary.Proofs.Yaml.Literal
import SchemaSummary.Proofs.Yaml.Numbers
import SchemaSummary.Proofs.Yaml.Words
import SchemaSummary.Proofs.Yaml.Scalar
import SchemaSummary.Proofs.Yaml.Blocks
import SchemaSummary.Proofs.Yaml.Layout
import SchemaSummary.Proofs.Yaml.Nodes
import SchemaSummary.Proofs.Document.RoundTrip
import SchemaSummary.Proofs.Disk.Paths
import SchemaSummary.Proofs.Disk.Tree
import SchemaSummary.Proofs.Command.Delivery
import SchemaSummary.Proofs.Command.Agreement
import SchemaSummary.Proofs.Command.Confinement
import SchemaSummary.Proofs.Command.Refusal
import SchemaSummary.Proofs.Document.QualifiedNames
import SchemaSummary.Proofs.Generation.ImportPaths
import SchemaSummary.Proofs.Plugin.Requests
import SchemaSummary.Proofs.Plugin.Responses
import SchemaSummary.Proofs.Document.FieldOrder
import SchemaSummary.Proofs.Generation.DeclarationOrder
import SchemaSummary.Proofs.Document.References
import SchemaSummary.Proofs.Generation.Modules
import SchemaSummary.Proofs.Generation.Expressible
import SchemaSummary.Proofs.Generation.Totals
import SchemaSummary.Proofs.Command.Preview
import SchemaSummary.Proofs.Generation.NameInputs
import SchemaSummary.Proofs.Yaml.Identifiers
import SchemaSummary.Proofs.Document.Layout
import SchemaSummary.Proofs.Document.Characters
