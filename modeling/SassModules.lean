import SassModules.CommandLine.Arguments
import SassModules.CommandLine.Request
import SassModules.CommandLine.Run
import SassModules.Completion
import SassModules.Cursor.Context
import SassModules.Cursor.Document
import SassModules.Cursor.Reference
import SassModules.Data
import SassModules.Decimal.Shortest
import SassModules.Declaration
import SassModules.Definition
import SassModules.Disk
import SassModules.Event
import SassModules.Exposure
import SassModules.Fault
import SassModules.Forwarding
import SassModules.Graph.Basic
import SassModules.Graph.Build
import SassModules.Graph.Discovery
import SassModules.Graph.Display
import SassModules.Graph.Export
import SassModules.Graph.Tree
import SassModules.Journal
import SassModules.Json.Basic
import SassModules.Json.Reader
import SassModules.Json.Writer
import SassModules.Main
import SassModules.Manifest
import SassModules.Member
import SassModules.Name
import SassModules.Parameter
import SassModules.Path
import SassModules.Proofs.Accepting
import SassModules.Proofs.Additions
import SassModules.Proofs.Agreement
import SassModules.Proofs.Building
import SassModules.Proofs.Candidates
import SassModules.Proofs.Chain
import SassModules.Proofs.Coherence
import SassModules.Proofs.Collapsing
import SassModules.Proofs.Composition
import SassModules.Proofs.Coverage
import SassModules.Proofs.Declared
import SassModules.Proofs.Depth
import SassModules.Proofs.Descent
import SassModules.Proofs.Directories
import SassModules.Proofs.Drawing
import SassModules.Proofs.Earliest
import SassModules.Proofs.Ending
import SassModules.Proofs.Expansion
import SassModules.Proofs.Grammar
import SassModules.Proofs.History
import SassModules.Proofs.Listing
import SassModules.Proofs.Lists
import SassModules.Proofs.Literals
import SassModules.Proofs.Location
import SassModules.Proofs.Lookup
import SassModules.Proofs.Offering
import SassModules.Proofs.Ordered
import SassModules.Proofs.Outcome
import SassModules.Proofs.Parens
import SassModules.Proofs.Placement
import SassModules.Proofs.Pointing
import SassModules.Proofs.Precedence
import SassModules.Proofs.Prefixes
import SassModules.Proofs.Reading
import SassModules.Proofs.Rereading
import SassModules.Proofs.Restoring
import SassModules.Proofs.Rows
import SassModules.Proofs.Rules
import SassModules.Proofs.Scanning
import SassModules.Proofs.Search
import SassModules.Proofs.Signature
import SassModules.Proofs.Spelling
import SassModules.Proofs.Steady
import SassModules.Proofs.Token
import SassModules.Proofs.Touching
import SassModules.Proofs.Unwritten
import SassModules.Proofs.Writing
import SassModules.Report
import SassModules.Resolution
import SassModules.Session
import SassModules.Settings
import SassModules.Text.Alphanumeric
import SassModules.Text.Basic
import SassModules.Text.Cased
import SassModules.Text.Class
import SassModules.Text.Lower
import SassModules.Text.Number
import SassModules.Text.Pattern
import SassModules.Text.Quoted
import SassModules.Text.Unprintable
import SassModules.Text.Utf8
import SassModules.Yaml.Document
import SassModules.Yaml.Place
import SassModules.Yaml.Scalar
import SassModules.Yaml.Token
