import PackageRefs.Bundle.Build
import PackageRefs.Bundle.Entry
import PackageRefs.Command.Arguments
import PackageRefs.Command.Files
import PackageRefs.Command.Run
import PackageRefs.Command.Similar
import PackageRefs.Command.Spec
import PackageRefs.Command.Usage
import PackageRefs.Disk.Basic
import PackageRefs.Disk.Path
import PackageRefs.Disk.Source
import PackageRefs.Failure
import PackageRefs.Format.File
import PackageRefs.Format.Formatter
import PackageRefs.Format.Minify
import PackageRefs.Format.Style
import PackageRefs.Json.Document
import PackageRefs.Json.Text
import PackageRefs.Machine.Backup
import PackageRefs.Machine.Basic
import PackageRefs.Machine.Program
import PackageRefs.Main
import PackageRefs.Number.Binary64
import PackageRefs.Number.Decimal
import PackageRefs.Number.Fixed
import PackageRefs.Package.Lookup
import PackageRefs.Package.Manifest
import PackageRefs.Package.Name
import PackageRefs.Proofs.Bundle.Build
import PackageRefs.Proofs.Bundle.Entry
import PackageRefs.Proofs.Bundle.Literal
import PackageRefs.Proofs.Disk.Ancestor
import PackageRefs.Proofs.Disk.Component
import PackageRefs.Proofs.Disk.File
import PackageRefs.Proofs.Disk.Frame
import PackageRefs.Proofs.Disk.Place
import PackageRefs.Proofs.Format.Failure
import PackageRefs.Proofs.Format.Nearest
import PackageRefs.Proofs.Format.Retry
import PackageRefs.Proofs.Machine.Backup
import PackageRefs.Proofs.Machine.Interleaving
import PackageRefs.Proofs.Machine.Running
import PackageRefs.Proofs.Package.Containment
import PackageRefs.Proofs.Plain.Boundary
import PackageRefs.Proofs.Plain.Commenting
import PackageRefs.Proofs.Plain.Expression
import PackageRefs.Proofs.Plain.Operand
import PackageRefs.Proofs.Plain.Printing
import PackageRefs.Proofs.Plain.Removal
import PackageRefs.Proofs.Plain.Script
import PackageRefs.Proofs.Plain.Spoil
import PackageRefs.Proofs.Plain.Statement
import PackageRefs.Proofs.Plain.Syntax
import PackageRefs.Proofs.Plain.Token
import PackageRefs.Proofs.Plain.Trivia
import PackageRefs.Proofs.Reference.Agreement
import PackageRefs.Proofs.Reference.Call
import PackageRefs.Proofs.Reference.Grammar
import PackageRefs.Proofs.Reference.Mention
import PackageRefs.Proofs.Reference.Occurrence
import PackageRefs.Proofs.Reference.Scan
import PackageRefs.Proofs.Removal.Bystander
import PackageRefs.Proofs.Removal.Closure
import PackageRefs.Proofs.Removal.Composition
import PackageRefs.Proofs.Removal.Cut
import PackageRefs.Proofs.Removal.Edit
import PackageRefs.Proofs.Removal.Finds
import PackageRefs.Proofs.Removal.Forced
import PackageRefs.Proofs.Removal.Frame
import PackageRefs.Proofs.Removal.Hollow
import PackageRefs.Proofs.Removal.Insertion
import PackageRefs.Proofs.Removal.LastResort
import PackageRefs.Proofs.Removal.LineDeletion
import PackageRefs.Proofs.Removal.Reach
import PackageRefs.Proofs.Removal.Repeat
import PackageRefs.Proofs.Removal.StaticImport
import PackageRefs.Proofs.Removal.Strip
import PackageRefs.Proofs.Removal.Structural
import PackageRefs.Proofs.Removal.Validity
import PackageRefs.Proofs.Script.Infinity
import PackageRefs.Proofs.Script.Reading
import PackageRefs.Proofs.Script.Tree
import PackageRefs.Proofs.Text.Line
import PackageRefs.Proofs.Text.Search
import PackageRefs.Proofs.Text.Utf8
import PackageRefs.Reference.Analysis
import PackageRefs.Reference.Filter
import PackageRefs.Reference.Node
import PackageRefs.Reference.Scan
import PackageRefs.Removal.CommentOut
import PackageRefs.Removal.File
import PackageRefs.Removal.Strip
import PackageRefs.Removal.Structural
import PackageRefs.Removal.Tree
import PackageRefs.Report.Ink
import PackageRefs.Report.Size
import PackageRefs.Report.Text
import PackageRefs.Script.Comment
import PackageRefs.Script.Compress
import PackageRefs.Script.Compress.Condition
import PackageRefs.Script.Compress.Effect
import PackageRefs.Script.Compress.Expression
import PackageRefs.Script.Compress.Inline
import PackageRefs.Script.Compress.Names
import PackageRefs.Script.Compress.Normalize
import PackageRefs.Script.Compress.Statement
import PackageRefs.Script.Constant
import PackageRefs.Script.Diagnostic
import PackageRefs.Script.Dialect
import PackageRefs.Script.Extension
import PackageRefs.Script.Infinity
import PackageRefs.Script.Lexer.Mark
import PackageRefs.Script.Lexer.Numeral
import PackageRefs.Script.Lexer.Quoted
import PackageRefs.Script.Lexer.Trivia
import PackageRefs.Script.Operator
import PackageRefs.Script.Parser
import PackageRefs.Script.Parser.Class
import PackageRefs.Script.Parser.Declaration
import PackageRefs.Script.Parser.Expression
import PackageRefs.Script.Parser.Function
import PackageRefs.Script.Parser.Markup
import PackageRefs.Script.Parser.Module
import PackageRefs.Script.Parser.Name
import PackageRefs.Script.Parser.Pattern
import PackageRefs.Script.Parser.State
import PackageRefs.Script.Parser.Statement
import PackageRefs.Script.Parser.Target
import PackageRefs.Script.Parser.Type
import PackageRefs.Script.Printer
import PackageRefs.Script.Printer.Expression
import PackageRefs.Script.Printer.Function
import PackageRefs.Script.Printer.Literal
import PackageRefs.Script.Printer.Markup
import PackageRefs.Script.Printer.Module
import PackageRefs.Script.Printer.Output
import PackageRefs.Script.Printer.Statement
import PackageRefs.Script.Printer.Type
import PackageRefs.Script.Scope
import PackageRefs.Script.ShortName
import PackageRefs.Script.Token
import PackageRefs.Script.Traversal
import PackageRefs.Script.Tree
import PackageRefs.Text.Character
import PackageRefs.Text.Line
import PackageRefs.Text.NameTable
import PackageRefs.Text.Search
import PackageRefs.Text.Utf8
