/-
# Reading a script

`parse` turns a text into its tree, its comments, and the list of what is wrong with it.  A text may
be read to its end and still have complaints; when it could not be read to its end, `panicked` is
set and the tree is empty.

**The order of complaints.**  Those about single tokens come first, then those about their
arrangement in the order in which they were found, then the one that ended the reading, and last
those about values of short properties outside patterns and about exported names.
-/
import PackageRefs.Script.Export
import PackageRefs.Script.Parser.Declaration

namespace PackageRefs.Script

/-- What reading a script gives. -/
structure Parsed where
  /-- The tree, which is empty when the reading was given up. -/
  program : Tree
  comments : List Comment
  diagnostics : List Diagnostic
  /-- The reading was given up before the end. -/
  panicked : Bool
  deriving Inhabited

namespace Parsed

/-- Nothing is wrong with the script. -/
def succeeded (p : Parsed) : Bool := !p.panicked && p.diagnostics.isEmpty

end Parsed

/-! ## 1. The start of a script -/

/-- The line that names an interpreter, without its mark, if the text starts with one. -/
def hashbang? (text : List Char) : Option (List Char) :=
  match text with
  | '#' :: '!' :: r => some (r.takeWhile fun c => !Lexer.isLineBreak c)
  | _ => none

/-- The state before a text, with its first token in hand. -/
def State.start (dialect : Dialect) (text : List Char) (pos : Nat) : State :=
  Parser.nextOn true
    { dialect
      context := { isAwait := dialect.isModule }
      token := { lexeme := .endOfText, start := pos, stop := pos }
      tokenText := []
      rest := text
      previousStop := pos }

/-! ## 2. The whole script -/

namespace Parser

/-- The statements of a script. -/
def program (grammar : Grammar) (hashbang : Option String) : Parser Tree := do
  let start ← here
  let parts ← statementsUntil grammar atEnd
  return .node (.program hashbang) ⟨start, ← here⟩ parts

end Parser

/-- A bound on how deep the rules of the grammar nest in a text of the given length. -/
def nestingBound (length : Nat) : Nat := 16 * length + 64

/-- The first comment says that the script is written in another dialect. -/
def declaresFlow (dialect : Dialect) (comments : List Comment) : Bool :=
  !dialect.typescript && (comments.head?.any fun c => mentions "@flow".toList c.text)

/-- Reads a script.  A mark of the encoding may stand before it, but not before the line that names an
interpreter. -/
def parse (dialect : Dialect) (source : String) : Parsed :=
  let all := source.toList
  let (text, offset) :=
    match all with
    | '\ufeff' :: r => (r, 1)
    | _ => (all, 0)
  let hashbang := if offset == 0 then hashbang? text else none
  let (text, offset) :=
    match hashbang with
    | some line => (text.drop (line.length + 2), offset + line.length + 2)
    | none => (text, offset)
  let grammar := Parser.goal (nestingBound text.length)
  let initial := State.start dialect text offset
  let finish (program : Tree) (state : State) (last : List Diagnostic) (panicked : Bool) : Parsed :=
    let misplaced := state.shortDefaults.map fun _ => Diagnostic.defaultOutsidePattern
    let found := state.lexical.reverse ++ state.complaints.reverse ++ last ++ misplaced
    let comments := state.log.toList
    let exports := if dialect.typescript then [] else exportComplaints program
    { program, comments, panicked
      diagnostics :=
        if !found.isEmpty && declaresFlow dialect comments then [.flowSource]
        else found ++ exports }
  match Parser.program grammar (hashbang.map String.ofList) initial with
  | .ok program state => finish program state [] false
  | .fatal d state => finish (.node (.program none) ⟨0, 0⟩ [.absent, .absent]) state [d] true

end PackageRefs.Script
