import Transplant.Text.Blank
import Transplant.Text.Basic
import Transplant.Text.Letter
import Transplant.Text.Lowercase
import Transplant.Text.Lined
import Transplant.ModulePath
import Transplant.Prologue
import Transplant.Clause
import Transplant.NameOrder
import Transplant.Import
import Transplant.ExportList
import Transplant.Declaration.Basic
import Transplant.Declaration.Head
import Transplant.Declaration.Listing
import Transplant.Declaration.Marker
import Transplant.Declaration.Use
import Transplant.Lexical
import Transplant.Outline.Basic
import Transplant.Outline.Statement
import Transplant.Outline.Method
import Transplant.Outline.Heuristic
import Transplant.Refusal
import Transplant.Selection
import Transplant.Clash
import Transplant.Forwarding
import Transplant.Links
import Transplant.Move
import Transplant.Session
import Transplant.Report.Style
import Transplant.Report.Json
import Transplant.Report.Move
import Transplant.Path
import Transplant.Tree
import Transplant.Ignore.Trail
import Transplant.Ignore.Glob
import Transplant.Ignore.Rules
import Transplant.Browse
import Transplant.Toml.Value
import Transplant.Toml.Scalar
import Transplant.Toml.Document
import Transplant.Settings
import Transplant.Report.Destinations
import Transplant.Command.LineSpan
import Transplant.Command.Arguments
import Transplant.Command.Run
import Transplant.Main
import Transplant.Proofs.LineView
import Transplant.Proofs.Clauses
import Transplant.Proofs.Statements
import Transplant.Proofs.Heads
import Transplant.Proofs.Markers
import Transplant.Proofs.DeclarationLines
import Transplant.Proofs.Names
import Transplant.Proofs.Blocks
import Transplant.Proofs.Edits
import Transplant.Proofs.ModulePaths
import Transplant.Proofs.Steps
import Transplant.Proofs.DeclarationConservation
import Transplant.Proofs.LineConservation
import Transplant.Proofs.Mentions
import Transplant.Proofs.SourceLinks
import Transplant.Proofs.Paths
import Transplant.Proofs.SameFile
import Transplant.Proofs.Imports
import Transplant.Proofs.LiveCode
import Transplant.Proofs.OutlineBraces
import Transplant.Proofs.UsedNames
import Transplant.Proofs.TargetLinks
import Transplant.Proofs.LeftBehind
import Transplant.Proofs.ImportResolution
import Transplant.Proofs.RoundTrip
import Transplant.Proofs.Relinking
import Transplant.Proofs.SelfImports
import Transplant.Proofs.PublicNames
import Transplant.Proofs.Exports
import Transplant.Proofs.OutlineTree
import Transplant.Proofs.Siblings
import Transplant.Proofs.Overlooked
import Transplant.Proofs.Directories
import Transplant.Proofs.Respelling
import Transplant.Proofs.FirstDeclaration
import Transplant.Proofs.CopiedMarkers
import Transplant.Proofs.Clashes
import Transplant.Proofs.Pointing
import Transplant.Proofs.SelectedCode
import Transplant.Proofs.LineBreaks
import Transplant.Proofs.SourceBreaks
import Transplant.Proofs.StatementBreaks
import Transplant.Proofs.OutlineBreaks
import Transplant.Proofs.Trees
import Transplant.Proofs.FileChanges
import Transplant.Proofs.AddedImports
import Transplant.Proofs.Browsing
import Transplant.Proofs.LiveSlots
import Transplant.Proofs.ErasedNames
import Transplant.Proofs.StackedImports
import Transplant.Proofs.Ways
import Transplant.Proofs.Destinations
import Transplant.Proofs.Normalization
import Transplant.Proofs.WordSearch
import Transplant.Proofs.Bytes
import Transplant.Proofs.ByteSearch
import Transplant.Proofs.StatementBytes
import Transplant.Proofs.HeaderComments
import Transplant.Proofs.RestoredMarkers
import Transplant.Proofs.CarriedMarkers
import Transplant.Proofs.RelativePosition
