import PyStyle.Analysis
import PyStyle.Catalog
import PyStyle.Check
import PyStyle.Check.Complexity
import PyStyle.Check.Decorator
import PyStyle.Check.ImplicitElif
import PyStyle.Check.Standard
import PyStyle.Check.TypeHint
import PyStyle.Collection
import PyStyle.CommandLine
import PyStyle.CommandLine.Invocation
import PyStyle.CommandLine.Run
import PyStyle.Complexity
import PyStyle.Concrete
import PyStyle.Concrete.Grammar
import PyStyle.Concrete.Grammar.Expression
import PyStyle.Concrete.Grammar.Pattern
import PyStyle.Concrete.Grammar.Statement
import PyStyle.Concrete.Parse
import PyStyle.Concrete.Terminal
import PyStyle.FileTree
import PyStyle.Glob
import PyStyle.JsonValue
import PyStyle.JsonValue.Printed
import PyStyle.Lint
import PyStyle.Main
import PyStyle.Node
import PyStyle.Node.OfConcrete
import PyStyle.Path
import PyStyle.Position
import PyStyle.Report
import PyStyle.Report.Pretty
import PyStyle.Roster
import PyStyle.Rule
import PyStyle.Rule.Standard
import PyStyle.Settings
import PyStyle.Settings.Load
import PyStyle.Settings.OfYaml
import PyStyle.SourceUnit
import PyStyle.SourceUnit.Load
import PyStyle.SourceUnit.OfJson
import PyStyle.SourceUnit.Printed
import PyStyle.Suppression
import PyStyle.Text.Blank
import PyStyle.Text.Decimal
import PyStyle.Text.Identifier
import PyStyle.Text.Invisible
import PyStyle.Text.Letter
import PyStyle.Text.Mark
import PyStyle.Text.Quoted
import PyStyle.Text.Ranges
import PyStyle.Text.Replace
import PyStyle.Text.Word
import PyStyle.Token
import PyStyle.Token.Lexeme
import PyStyle.Token.Scanner
import PyStyle.Yaml.Cursor
import PyStyle.Yaml.Node
import PyStyle.Yaml.Token
import PyStyle.Yaml.Token.Property
import PyStyle.Yaml.Token.Scalar
import PyStyle.Yaml.Token.Scanner
import PyStyle.Proofs.VisitOrder
import PyStyle.Proofs.BlockProgram
import PyStyle.Proofs.ImplicitElif
import PyStyle.Proofs.ScannerRun
import PyStyle.Proofs.TokenSpelling
import PyStyle.Proofs.TokenLayout
import PyStyle.Proofs.CatalogSoundness
import PyStyle.Proofs.ReportBuckets
import PyStyle.Proofs.ScorePaths
import PyStyle.Proofs.ModuleScores
import PyStyle.Proofs.CheckIsolation
import PyStyle.Proofs.CatalogIndexes
import PyStyle.Proofs.BackedViolations
import PyStyle.Proofs.LineLexemes
import PyStyle.Proofs.LineEndings
import PyStyle.Proofs.FilterRuns
import PyStyle.Proofs.TokenPositions
import PyStyle.Proofs.JsonText
import PyStyle.Proofs.UnitRoundTrip
import PyStyle.Proofs.ErasedPositions
import PyStyle.Proofs.ElifSpelling
import PyStyle.Proofs.TreeShape
import PyStyle.Proofs.ShapedReading
import PyStyle.Proofs.GrammarRules
import PyStyle.Proofs.ConstructCounts
import PyStyle.Proofs.FaithfulParts
import PyStyle.Proofs.FaithfulReading
import PyStyle.Proofs.FaultFreeChecks
import PyStyle.Proofs.BlockMatching
import PyStyle.Proofs.LoneIfLines
import PyStyle.Proofs.LineIndents
import PyStyle.Proofs.ElseOwners
import PyStyle.Proofs.ModuleAverages
import PyStyle.Proofs.ScoreMonotone
import PyStyle.Proofs.StringBytes
import PyStyle.Proofs.StringLiterals
import PyStyle.Proofs.TokenOrder
import PyStyle.Proofs.TextBehind
import PyStyle.Proofs.BlankLines
import PyStyle.Proofs.FinalNewline
import PyStyle.Proofs.LoneReturns
import PyStyle.Proofs.AddedComments
import PyStyle.Proofs.CodeSpelling
import PyStyle.Proofs.DirectiveReading
import PyStyle.Proofs.IgnoredCodes
import PyStyle.Proofs.WalkOrder
import PyStyle.Proofs.ScoreBounds
import PyStyle.Proofs.ReportOrder
import PyStyle.Proofs.JoinedPaths
import PyStyle.Proofs.CollectedFiles
