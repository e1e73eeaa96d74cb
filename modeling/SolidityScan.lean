import SolidityScan.Tree.Query
import SolidityScan.Scan.Engine
import SolidityScan.Report.Markdown
import SolidityScan.Proofs.Except
import SolidityScan.Proofs.Lists
import SolidityScan.Proofs.StableSort
import SolidityScan.Proofs.Text.Boundaries
import SolidityScan.Proofs.Text.Numerals
import SolidityScan.Proofs.Text.Pieces
import SolidityScan.Proofs.Text.Utf8
import SolidityScan.Proofs.Json.Fields
import SolidityScan.Proofs.Json.Grammar
import SolidityScan.Proofs.Json.Nesting
import SolidityScan.Proofs.Json.OpenBrackets
import SolidityScan.Proofs.Json.Printing
import SolidityScan.Proofs.Regex.Abutting
import SolidityScan.Proofs.Regex.Disjoint
import SolidityScan.Proofs.Regex.Greedy
import SolidityScan.Proofs.Regex.Outcomes
import SolidityScan.Proofs.Regex.Places
import SolidityScan.Proofs.Regex.Searches
import SolidityScan.Proofs.Regex.Stops
import SolidityScan.Proofs.Source.LineEndings
import SolidityScan.Proofs.Source.Lines
import SolidityScan.Proofs.Source.Lookup
import SolidityScan.Proofs.Source.Newlines
import SolidityScan.Proofs.Source.Ranges
import SolidityScan.Proofs.Source.Requests
import SolidityScan.Proofs.Source.Spans
import SolidityScan.Proofs.Tree.Depth
import SolidityScan.Proofs.Tree.Limits
import SolidityScan.Proofs.Tree.Nodes
import SolidityScan.Proofs.Tree.Paths
import SolidityScan.Proofs.Tree.Preorder
import SolidityScan.Proofs.Tree.Reading
import SolidityScan.Proofs.Tree.Shapes
import SolidityScan.Proofs.Tree.Simulation
import SolidityScan.Proofs.Tree.Texts
import SolidityScan.Proofs.Tree.Traversal
import SolidityScan.Proofs.Rules.Arrays
import SolidityScan.Proofs.Rules.Asserts
import SolidityScan.Proofs.Rules.Calls
import SolidityScan.Proofs.Rules.Constructors
import SolidityScan.Proofs.Rules.DepthBound
import SolidityScan.Proofs.Rules.Padding
import SolidityScan.Proofs.Rules.Shift
import SolidityScan.Proofs.Rules.Simulation
import SolidityScan.Proofs.Rules.ZeroAddress
import SolidityScan.Proofs.Registry
import SolidityScan.Proofs.RegistryContents
import SolidityScan.Proofs.Scan.Accounting
import SolidityScan.Proofs.Scan.Attribution
import SolidityScan.Proofs.Scan.Encoding
import SolidityScan.Proofs.Scan.Independence
import SolidityScan.Proofs.Scan.Locating
import SolidityScan.Proofs.Scan.Order
import SolidityScan.Proofs.Scan.Pairs
import SolidityScan.Proofs.Scan.Permutation
import SolidityScan.Proofs.Scan.Positions
import SolidityScan.Proofs.Scan.Trees
import SolidityScan.Proofs.Report.Files
import SolidityScan.Proofs.Report.Grouping
import SolidityScan.Proofs.Report.Links
import SolidityScan.Proofs.Report.ReadBack
