import Bindery.About
import Bindery.Attribute
import Bindery.BuildInfo
import Bindery.Calendar
import Bindery.Collector
import Bindery.CommandLine.Form
import Bindery.CommandLine.Help
import Bindery.CommandLine.Program
import Bindery.Config.Address
import Bindery.Config.Check
import Bindery.Config.Complaint
import Bindery.Config.Expansion
import Bindery.Config.File
import Bindery.Config.Level
import Bindery.Config.Load
import Bindery.Config.Merge
import Bindery.Config.Settings
import Bindery.FailureKind
import Bindery.FileTree
import Bindery.Journal
import Bindery.Layout
import Bindery.Ledger
import Bindery.Loggers
import Bindery.Main
import Bindery.Memo
import Bindery.Naming
import Bindery.Number.Binary64
import Bindery.Number.Numeral
import Bindery.Number.Shortest
import Bindery.Path
import Bindery.Rounds
import Bindery.Sink
import Bindery.Text.Blank
import Bindery.Text.CaseRange
import Bindery.Text.Encoded
import Bindery.Text.LowerCase
import Bindery.Text.Printable
import Bindery.Text.Quoted
import Bindery.Text.Segments
import Bindery.Text.UpperCase
import Bindery.Value
import Bindery.Value.Display
import Bindery.Yaml.Binary
import Bindery.Yaml.Character
import Bindery.Yaml.Defect
import Bindery.Yaml.Document
import Bindery.Yaml.Lexeme
import Bindery.Yaml.Lexer
import Bindery.Yaml.Node
import Bindery.Yaml.Tag
import Bindery.Yaml.Timestamp
import Bindery.Yaml.Token
import Bindery.Yaml.TokenStream
import Bindery.Proofs.KeyEquality
import Bindery.Proofs.MemoHistory
import Bindery.Proofs.MemoStability
import Bindery.Proofs.MemoStarts
import Bindery.Proofs.GalleryRuns
import Bindery.Proofs.SnakeCase
import Bindery.Proofs.LayoutRuns
import Bindery.Proofs.RoundRuns
import Bindery.Proofs.RoundTrace
import Bindery.Proofs.Layers
import Bindery.Proofs.LayerPaths
import Bindery.Proofs.LayerAlgebra
import Bindery.Proofs.Environment
import Bindery.Proofs.DocumentKeys
import Bindery.Proofs.Loading
import Bindery.Proofs.References
import Bindery.Proofs.PathText
import Bindery.Proofs.TreeGrowth
import Bindery.Proofs.SourceFiles
import Bindery.Proofs.SourceNames
import Bindery.Proofs.FoldersMade
import Bindery.Proofs.SinkRefinement
import Bindery.Proofs.Collecting
import Bindery.Proofs.Influence
import Bindery.Proofs.BelowRoot
import Bindery.Proofs.Expansion
import Bindery.Proofs.CamelCase
import Bindery.Proofs.Capitals
import Bindery.Proofs.FieldNames
import Bindery.Proofs.SharedFiles
import Bindery.Proofs.FailedWrites
import Bindery.Proofs.Variables
import Bindery.Proofs.LoggerRuns
import Bindery.Proofs.LevelNames
import Bindery.Proofs.NamedLevels
import Bindery.Proofs.DocumentTop
import Bindery.Proofs.ArgumentTurns
import Bindery.Proofs.CommandLines
import Bindery.Proofs.ProgramRuns
