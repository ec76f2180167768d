import Relay.Analysis.Chain
import Relay.Analysis.Export
import Relay.Analysis.Lookup
import Relay.Analysis.Requirement
import Relay.Analysis.Service
import Relay.Analysis.ServiceCall
import Relay.Analysis.State
import Relay.Analysis.Url
import Relay.Analysis.Usage
import Relay.Analysis.Values
import Relay.Analysis.WriteContext
import Relay.Analyzer
import Relay.Chart.Draw
import Relay.Chart.Label
import Relay.Chart.Line
import Relay.Chart.NodeId
import Relay.Chart.Placement
import Relay.Command.Flag
import Relay.Command.Request
import Relay.Command.Run
import Relay.Command.Usage
import Relay.Command.Word
import Relay.Config
import Relay.Decimal.Double
import Relay.Decimal.Shortest
import Relay.Encoding
import Relay.Endpoint
import Relay.Facts
import Relay.Files
import Relay.Files.Text
import Relay.Files.Write
import Relay.Flow.Edge
import Relay.Flow.Encoding
import Relay.Flow.Property
import Relay.Flow.Result
import Relay.Json.Read
import Relay.Json.Shown
import Relay.Json.Value
import Relay.Json.Write
import Relay.Log
import Relay.Main
import Relay.Middleware
import Relay.Path
import Relay.Record
import Relay.Regex.Basic
import Relay.Regex.Read
import Relay.Regex.Search
import Relay.Report.Build
import Relay.Report.View
import Relay.Resolver
import Relay.Settings.Load
import Relay.Settings.Merge
import Relay.Source
import Relay.Syntax.Callable
import Relay.Syntax.Expression
import Relay.Syntax.Kind
import Relay.Syntax.Literal
import Relay.Syntax.Markup
import Relay.Syntax.Measure
import Relay.Syntax.Node
import Relay.Syntax.ObjectForm
import Relay.Syntax.Parameter
import Relay.Syntax.Pattern
import Relay.Syntax.Program
import Relay.Syntax.Reading
import Relay.Syntax.Scan
import Relay.Syntax.Shape
import Relay.Syntax.Statement
import Relay.Syntax.TypeTerm
import Relay.Syntax.Walk
import Relay.Text.Blank
import Relay.Text.Case
import Relay.Text.Digit
import Relay.Text.Pieces
import Relay.Text.Quoted
import Relay.Text.Utf8
import Relay.Text.Visible
import Relay.Text.Whole
import Relay.Text.Word
import Relay.Unique
import Relay.Proofs.PathText
import Relay.Proofs.Found
import Relay.Proofs.Requires
import Relay.Proofs.Exploration
import Relay.Proofs.Growth
import Relay.Proofs.SingleAnalysis
import Relay.Proofs.DepthFirst
import Relay.Proofs.Faithful
import Relay.Proofs.Reachability
import Relay.Proofs.DepthLimit
import Relay.Proofs.Notes
import Relay.Proofs.Owners
import Relay.Proofs.Sessions
import Relay.Proofs.Writing
import Relay.Proofs.Edits
import Relay.Proofs.Packages
import Relay.Proofs.Chains
import Relay.Proofs.ComponentEdges
import Relay.Proofs.Neighbours
import Relay.Proofs.Arrows
import Relay.Proofs.NodeNames
import Relay.Proofs.Sites
import Relay.Proofs.DrawnCalls
import Relay.Proofs.PathKeys
import Relay.Proofs.FirstReports
import Relay.Proofs.HangingCalls
import Relay.Proofs.TreeShape
import Relay.Proofs.Cancelling
import Relay.Proofs.ChartShape
import Relay.Proofs.ReportedCalls
import Relay.Proofs.Walks
import Relay.Proofs.Ranges
import Relay.Proofs.WriteContexts
import Relay.Proofs.Mentions
import Relay.Proofs.NativeKeys
import Relay.Proofs.InnerAccesses
import Relay.Proofs.Addresses
import Relay.Proofs.Scopes
import Relay.Proofs.EdgeEnds
import Relay.Proofs.LabelTexts
import Relay.Proofs.LabelLayout
import Relay.Proofs.Collecting
import Relay.Proofs.Expansion
import Relay.Proofs.CallNames
import Relay.Proofs.AccessPaths
import Relay.Proofs.CanonicalPaths
import Relay.Proofs.KeyPaths
import Relay.Proofs.Layers
import Relay.Proofs.Endpoints
import Relay.Proofs.ModuleNames
import Relay.Proofs.Imports
import Relay.Proofs.Decoding
import Relay.Proofs.Snippets
import Relay.Proofs.Events
import Relay.Proofs.Operands
