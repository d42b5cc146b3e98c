import CodeGraph.Command.Analyze
import CodeGraph.Command.Host
import CodeGraph.Command.Journal
import CodeGraph.Command.Languages
import CodeGraph.Command.Line
import CodeGraph.Command.Log
import CodeGraph.Command.Notice
import CodeGraph.Command.Options
import CodeGraph.Command.Run
import CodeGraph.Command.SurveyNotice
import CodeGraph.Decimal.Double
import CodeGraph.Decimal.Shortest
import CodeGraph.Declaration
import CodeGraph.Declaration.Comment
import CodeGraph.Declaration.Java
import CodeGraph.Declaration.JavaScript
import CodeGraph.Declaration.Python
import CodeGraph.Declaration.Reader
import CodeGraph.Declaration.Signature
import CodeGraph.Declaration.TypeScript
import CodeGraph.Fault
import CodeGraph.Files.Fault
import CodeGraph.Files.Follow
import CodeGraph.Files.Node
import CodeGraph.Files.Resolve
import CodeGraph.Files.Walk
import CodeGraph.Grammar.Store
import CodeGraph.Ignore.Glob
import CodeGraph.Ignore.Matcher
import CodeGraph.Ignore.Pattern
import CodeGraph.Ignore.Rules
import CodeGraph.Ignore.Sources
import CodeGraph.Import.Phrase
import CodeGraph.Import.Statement
import CodeGraph.Import.Target
import CodeGraph.Json.Reader
import CodeGraph.Json.Value
import CodeGraph.Json.Writer
import CodeGraph.Language
import CodeGraph.Language.Table
import CodeGraph.Link
import CodeGraph.Link.Call
import CodeGraph.Link.Choice
import CodeGraph.Link.Finder
import CodeGraph.Link.Resolve
import CodeGraph.Main
import CodeGraph.ParsedFile
import CodeGraph.Path
import CodeGraph.Proofs.Declaration.Comments
import CodeGraph.Proofs.Emission
import CodeGraph.Proofs.Grammar.Epochs
import CodeGraph.Proofs.Grammar.Ledger
import CodeGraph.Proofs.Grammar.Uses
import CodeGraph.Proofs.Identity
import CodeGraph.Proofs.Import.Lines
import CodeGraph.Proofs.Import.Relative
import CodeGraph.Proofs.Link.CallForm
import CodeGraph.Proofs.Link.Calls
import CodeGraph.Proofs.Link.Choice
import CodeGraph.Proofs.Link.Distinct
import CodeGraph.Proofs.Link.Finder
import CodeGraph.Proofs.Link.ImportTarget
import CodeGraph.Proofs.Link.Imports
import CodeGraph.Proofs.Link.Order
import CodeGraph.Proofs.Link.Passes
import CodeGraph.Proofs.Link.SelfLinks
import CodeGraph.Proofs.Link.Sites
import CodeGraph.Proofs.Link.TextualCalls
import CodeGraph.Proofs.Link.WellFormed
import CodeGraph.Proofs.Nesting
import CodeGraph.Proofs.Outline
import CodeGraph.Proofs.Ownership.Closure
import CodeGraph.Proofs.Ownership.Family
import CodeGraph.Proofs.Ownership.Links
import CodeGraph.Proofs.Ownership.Sequence
import CodeGraph.Proofs.Ownership.Survey
import CodeGraph.Proofs.Repeats
import CodeGraph.Proofs.Settings.Load
import CodeGraph.Proofs.Survey.Accounting
import CodeGraph.Proofs.Survey.Alone
import CodeGraph.Proofs.Survey.Batches
import CodeGraph.Proofs.Survey.Cancellation
import CodeGraph.Proofs.Survey.Course
import CodeGraph.Proofs.Survey.Insertion
import CodeGraph.Proofs.Survey.Order
import CodeGraph.Proofs.Survey.Outcomes
import CodeGraph.Proofs.Survey.Parallel
import CodeGraph.Proofs.Survey.Paths
import CodeGraph.Proofs.Survey.Schedule
import CodeGraph.Proofs.Survey.Session
import CodeGraph.Proofs.Survey.Sightings
import CodeGraph.Proofs.Survey.Sites
import CodeGraph.Proofs.Survey.Store
import CodeGraph.Proofs.Survey.Strictness
import CodeGraph.Proofs.Text.Lines
import CodeGraph.Proofs.Text.Pieces
import CodeGraph.Proofs.Text.Position
import CodeGraph.Proofs.Text.Utf8
import CodeGraph.Settings.Analysis
import CodeGraph.Settings.Fault
import CodeGraph.Settings.Layer
import CodeGraph.Settings.Load
import CodeGraph.Survey.Collection
import CodeGraph.Survey.Outcome
import CodeGraph.Survey.Result
import CodeGraph.Survey.Run
import CodeGraph.Survey.Session
import CodeGraph.Text.Blank
import CodeGraph.Text.Cut
import CodeGraph.Text.Digit
import CodeGraph.Text.Lower
import CodeGraph.Text.Printable
import CodeGraph.Text.Quoted
import CodeGraph.Text.Ranges
import CodeGraph.Text.Utf8
import CodeGraph.Text.Word
import CodeGraph.Tree
import CodeGraph.Tree.Outline
import CodeGraph.Tree.Place
import CodeGraph.Tree.Walk
import CodeGraph.Proofs.Import.Action
import CodeGraph.Proofs.Declaration.Reading
import CodeGraph.Proofs.Declaration.TypeScript
import CodeGraph.Proofs.Declaration.Python
import CodeGraph.Proofs.Import.Reading
import CodeGraph.Proofs.Import.Dotted
import CodeGraph.Proofs.Import.Scan
import CodeGraph.Proofs.Declaration.Moving
import CodeGraph.Proofs.Declaration.PythonTraits
import CodeGraph.Proofs.Link.Bodies
import CodeGraph.Proofs.Files.Decision
import CodeGraph.Proofs.Files.Routes
import CodeGraph.Proofs.Language.Extensions
import CodeGraph.Proofs.Fallible
import CodeGraph.Proofs.Json.Objects
import CodeGraph.Proofs.Settings.Layers
import CodeGraph.Proofs.Calls
import CodeGraph.Proofs.Declaration.TypeNames
import CodeGraph.Proofs.Command.Collected
import CodeGraph.Proofs.Command.Analyze
