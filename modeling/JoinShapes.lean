import JoinShapes.Adjacency
import JoinShapes.Combination
import JoinShapes.CommandLine.Arguments
import JoinShapes.CommandLine.Run
import JoinShapes.Declaration.Basic
import JoinShapes.Declaration.Document
import JoinShapes.EdgeSet
import JoinShapes.EnvFile.Assignment
import JoinShapes.EnvFile.Lines
import JoinShapes.Environment
import JoinShapes.Files.Access
import JoinShapes.Files.Path
import JoinShapes.Files.Tree
import JoinShapes.Fingerprint
import JoinShapes.Generation
import JoinShapes.IndexSet
import JoinShapes.JoinGraph
import JoinShapes.JoinGraph.Growth
import JoinShapes.JoinGraph.Links
import JoinShapes.JoinedName
import JoinShapes.Journal
import JoinShapes.Json.Basic
import JoinShapes.Json.Decode
import JoinShapes.Json.Parse
import JoinShapes.Json.Render
import JoinShapes.Json.Token
import JoinShapes.Main
import JoinShapes.Plan.Assembly
import JoinShapes.Plan.Basic
import JoinShapes.Plan.Document
import JoinShapes.PlanError
import JoinShapes.Schema.Basic
import JoinShapes.Schema.Document
import JoinShapes.Schema.Error
import JoinShapes.Settings.Basic
import JoinShapes.Settings.Document
import JoinShapes.Settings.Overrides
import JoinShapes.Settings.Validation
import JoinShapes.Store
import JoinShapes.TableName
import JoinShapes.Text.Alphanumeric
import JoinShapes.Text.Blank
import JoinShapes.Text.Numeral
import JoinShapes.Text.Quoted
import JoinShapes.Text.Ranges
import JoinShapes.Text.Unprintable
import JoinShapes.Yaml.Cursor
import JoinShapes.Yaml.Decode
import JoinShapes.Yaml.Folding
import JoinShapes.Yaml.Grammar
import JoinShapes.Yaml.Layout
import JoinShapes.Yaml.Node
import JoinShapes.Yaml.Properties
import JoinShapes.Yaml.Scalar
import JoinShapes.Yaml.Token
import JoinShapes.Yaml.Tokens
import JoinShapes.Proofs.Connectivity
import JoinShapes.Proofs.Derivation
import JoinShapes.Proofs.Fingerprint
import JoinShapes.Proofs.Settles
import JoinShapes.Proofs.Store
import JoinShapes.Proofs.JoinGraph.Sound
import JoinShapes.Proofs.JoinGraph.Growth
import JoinShapes.Proofs.JoinGraph.Links
import JoinShapes.Proofs.JoinGraph.Exact
import JoinShapes.Proofs.Adjacency
import JoinShapes.Proofs.Joinable
import JoinShapes.Proofs.Plan.Assembly
import JoinShapes.Proofs.Plan.Run
import JoinShapes.Proofs.Plan.Records
import JoinShapes.Proofs.Plan.Contents
import JoinShapes.Proofs.Plan.Boundary
import JoinShapes.Proofs.Plan.Reachability
import JoinShapes.Proofs.Plan.Reordering
import JoinShapes.Proofs.Plan.Truncation
import JoinShapes.Proofs.Store.Insertions
import JoinShapes.Proofs.Store.Refusals
import JoinShapes.Proofs.Plan.Commuting
import JoinShapes.Proofs.Files.Tree
import JoinShapes.Proofs.Files.Disk
import JoinShapes.Proofs.Generation
import JoinShapes.Proofs.Json.Scan
import JoinShapes.Proofs.Json.Text
import JoinShapes.Proofs.Json.Decode
import JoinShapes.Proofs.Plan.Text
import JoinShapes.Proofs.JoinedName.Reading
import JoinShapes.Proofs.Fingerprint.Width
import JoinShapes.Proofs.JoinGraph.Coherent
import JoinShapes.Proofs.Plan.Resolution
import JoinShapes.Proofs.Schema.Build
import JoinShapes.Proofs.Declaration
import JoinShapes.Proofs.JoinGraph.Nodes
import JoinShapes.Proofs.Plan.Lookup
import JoinShapes.Proofs.Text.Classes
import JoinShapes.Proofs.TableName
import JoinShapes.Proofs.Text.Numeral
import JoinShapes.Proofs.Settings.Resolution
import JoinShapes.Proofs.Files.Path
import JoinShapes.Proofs.Settings.Accepted
import JoinShapes.Proofs.JoinGraph.Phases
import JoinShapes.Proofs.Schema.Index
