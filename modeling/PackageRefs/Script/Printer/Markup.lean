/-
# Writing markup

Elements keep the text between their tags as it was written.
-/
import PackageRefs.Script.Printer.Literal

namespace PackageRefs.Script.Printer

/-- Writes an attribute's text between quotes that it does not hold. -/
def attributeText (text : String) : Print := do
  let quote := if text.toList.contains '"' then '\'' else '"'
  char quote
  raw text
  char quote

/-- Writes an attribute with the blank before it. -/
def markupAttribute (pr : Writer) (t : Tree) : Print := do
  match t with
  | .node .tagAttribute _ [name, value] =>
    char ' '
    pr name .free
    unless value.isAbsent do
      char '='
      pr value .free
  | .node .spreadAttribute _ [e] =>
    space
    raw "\x7b..."
    pr e .item
    char '\x7d'
  | _ => nothing

/-- Writes an element. -/
def element (pr : Writer) (parts : List Tree) : Print := do
  match parts with
  | [name, args, attributes, children, closing] =>
    char '<'
    pr name .free
    unless args.isAbsent do pr args .free
    each (markupAttribute pr) attributes.parts
    if closing.isAbsent then
      space
      raw "/>"
    else
      char '>'
      each (pr · .free) children.parts
      raw "</"
      pr closing .free
      char '>'
  | _ => nothing

/-- Writes a fragment. -/
def fragment (pr : Writer) (children : List Tree) : Print := do
  raw "<>"
  each (pr · .free) children
  raw "</>"

/-- Writes an expression between braces. -/
def container (pr : Writer) (span : Span) (e : Tree) : Print := do
  char '\x7b'
  if e.isAbsent then closingComments (← takeComments (span.stop - 1)) else pr e .free
  char '\x7d'

end PackageRefs.Script.Printer
