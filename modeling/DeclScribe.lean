import DeclScribe.Text.TypeText
import DeclScribe.Text.Bytes
import DeclScribe.Description.Record
import DeclScribe.Language
import DeclScribe.Settings.Load
import DeclScribe.Node.Outline
import DeclScribe.Caret
import DeclScribe.Glob.Basic
import DeclScribe.Project.Collect
import DeclScribe.Project.Listing
import DeclScribe.Project.Snapshot
import DeclScribe.Main
import DeclScribe.Proofs.Describe.Outcome
import DeclScribe.Proofs.Describe.Walk
import DeclScribe.Proofs.Node.OutlineTree
import DeclScribe.Proofs.Describe.Listing
import DeclScribe.Proofs.SourceFile
import DeclScribe.Proofs.Caret.Lookup
import DeclScribe.Proofs.Caret.Navigation
import DeclScribe.Proofs.Json.Nesting
import DeclScribe.Proofs.Json.Numerals
import DeclScribe.Proofs.Json.RoundTrip
import DeclScribe.Proofs.Json.Parsed
import DeclScribe.Proofs.Description.Decoding
import DeclScribe.Proofs.Description.Record
import DeclScribe.Proofs.Json.OneLine
import DeclScribe.Proofs.Text.Lines
import DeclScribe.Proofs.Description.Lines
import DeclScribe.Proofs.Path
import DeclScribe.Proofs.Describe.Readable
import DeclScribe.Proofs.Project.Collect
import DeclScribe.Proofs.Project.Listing
import DeclScribe.Proofs.Command.List
import DeclScribe.Proofs.Describe.Enclosing
import DeclScribe.Proofs.Describe.Records
import DeclScribe.Proofs.Syntax.Qualified
import DeclScribe.Proofs.QualifiedName
import DeclScribe.Proofs.Node.OutlineWalk
import DeclScribe.Proofs.LocalClass
import DeclScribe.Proofs.Describe.Mirror
import DeclScribe.Proofs.Syntax.Pruned
import DeclScribe.Proofs.Comments.Lookup
import DeclScribe.Proofs.Comments.Files
import DeclScribe.Proofs.Comments.Kotlin
import DeclScribe.Proofs.Comments.Java
import DeclScribe.Proofs.Describe.TypeTexts
import DeclScribe.Proofs.Describe.Likeness
import DeclScribe.Proofs.Describe.Settings
import DeclScribe.Proofs.Describe.Origin
import DeclScribe.Proofs.Command.External
import DeclScribe.Proofs.Node.OutlineGrowth
import DeclScribe.Proofs.Describe.Growth
import DeclScribe.Proofs.Caret.Innermost
import DeclScribe.Proofs.Caret.Upward
import DeclScribe.Proofs.Syntax.ImplicitParameter
import DeclScribe.Proofs.Command.Outcome
import DeclScribe.Proofs.Settings.Load
import DeclScribe.Proofs.Text.NormalForm
import DeclScribe.Proofs.Describe.Attributes
import DeclScribe.Proofs.Describe.AttributeClashes
import DeclScribe.Proofs.Syntax.Modifiers
import DeclScribe.Proofs.Describe.FinalTypes
import DeclScribe.Proofs.PathOrder
import DeclScribe.Proofs.Project.Regular
import DeclScribe.Proofs.Glob.Nesting
import DeclScribe.Proofs.Project.Selection
import DeclScribe.Proofs.Syntax.Parameters
import DeclScribe.Proofs.Syntax.Parameters
import DeclScribe.Proofs.Describe.Titles
import DeclScribe.Proofs.Syntax.FirstUse
