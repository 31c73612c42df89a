/-
# Writing imports, exports and declarations of types

The declarations that connect modules, and those that only typed scripts have.
-/
import PackageRefs.Script.Printer.Statement

namespace PackageRefs.Script.Printer

/-! ## 1. Names across modules -/

/-- The name of a specifier. -/
def specifierName (t : Tree) : String :=
  match t.label with
  | .identifier name | .binding name | .propertyName name | .string name _ => name
  | _ => ""

/-- Writes a string that may not have back quotes. -/
def plainString (pr : Writer) (t : Tree) : Print :=
  match t.label with
  | .string value lone => string value lone false
  | _ => pr t .free

/-- Writes a name of another module. -/
def moduleName (pr : Writer) (t : Tree) : Print := plainString pr t

/-- Writes the attributes of an import. -/
def attributes (pr : Writer) (t : Tree) : Print := do
  match t with
  | .node (.importAttributes keyword) _ items =>
    raw keyword
    space
    char '\x7b'
    unless items.isEmpty do
      space
      separated comma
        (fun item => do
          moduleName pr (item.part 0)
          char ':'
          space
          plainString pr (item.part 1))
        items
      space
    char '\x7d'
  | _ => nothing

/-- Writes a name and, if it is not the same, the name it has elsewhere. -/
def renamed (pr : Writer) (typeOnly : Bool) (first second : Tree) : Print := do
  when typeOnly (raw "type ")
  moduleName pr first
  unless specifierName first == specifierName second do
    raw " as "
    moduleName pr second

/-! ## 2. Imports -/

/-- Writes the names of an import in reading order: names in braces are opened by the first of them
and closed behind the last. -/
def importNames (pr : Writer) : Bool → Bool → List Tree → Print
  | inBraces, _, [] => when inBraces (do space; char '\x7d'; space)
  | inBraces, first, t :: rest => do
    match t with
    | .node .importDefault _ [name] =>
      if first then char ' ' else comma
      pr name .free
      when rest.isEmpty (char ' ')
      importNames pr inBraces false rest
    | .node .importNamespace _ [name] =>
      if first then space else comma
      char '*'
      space
      raw "as "
      pr name .free
      char ' '
      importNames pr inBraces false rest
    | .node (.importNamed typeOnly) _ [imported, local_] =>
      if inBraces then comma
      else
        unless first do char ','
        space
        char '\x7b'
        space
      renamed pr typeOnly imported local_
      importNames pr true false rest
    | _ => importNames pr inBraces false rest

/-- Writes an import declaration. -/
def importDeclaration (pr : Writer) (typeOnly : Bool) (phase : Option String)
    (specifiers source attributeList : Tree) : Print := do
  word "import"
  when typeOnly (raw " type")
  match phase with
  | some p => do char ' '; raw p
  | none => nothing
  unless specifiers.isAbsent do
    if specifiers.parts.isEmpty then
      space
      raw "\x7b\x7d"
      space
    else importNames pr false true specifiers.parts
    raw "from"
  space
  plainString pr source
  unless attributeList.isAbsent do
    space
    attributes pr attributeList
  endStatement

/-! ## 3. Exports -/

/-- A declaration that ends like a statement. -/
def endsLikeStatement (t : Tree) : Bool :=
  match t.label with
  | .variableList .. | .typeAlias _ | .importEquals => true
  | _ => false

/-- Writes an export of names. -/
def exportNames (pr : Writer) (typeOnly : Bool) (specifiers source attributeList : Tree) : Print := do
  raw "export"
  when typeOnly (raw " type")
  space
  char '\x7b'
  unless specifiers.parts.isEmpty do
    space
    separated comma
      (fun t =>
        match t with
        | .node (.exportSpecifier typeOnly) _ [first, second] => renamed pr typeOnly first second
        | _ => nothing)
      specifiers.parts
    space
  char '\x7d'
  unless source.isAbsent do
    space
    raw "from"
    space
    plainString pr source
  unless attributeList.isAbsent do
    space
    attributes pr attributeList
  endStatement

/-- Writes an export of a declaration. -/
def exportDeclaration (pr : Writer) (declaration : Tree) : Print := do
  raw "export "
  pr declaration { sameLine := true }
  if endsLikeStatement declaration then endStatement
  else
    newline
    dropSemicolon

/-- Writes an export of everything. -/
def exportAll (pr : Writer) (typeOnly : Bool) (name source attributeList : Tree) : Print := do
  raw "export"
  if typeOnly then raw " type " else space
  char '*'
  if name.isAbsent then space
  else
    space
    raw "as "
    moduleName pr name
    char ' '
  raw "from"
  space
  plainString pr source
  unless attributeList.isAbsent do
    space
    attributes pr attributeList
  endStatement

/-- Writes a default export. -/
def exportDefault (pr : Writer) (inner : Tree) : Print := do
  raw "export default "
  match inner.label with
  | .interface => pr inner { sameLine := true }
  | .function .declaration .. | .class true .. =>
    pr inner { sameLine := true }
    newline
  | _ =>
    mark fun o => { o with defaultStart := some o.length }
    pr inner .item
    endStatement

/-! ## 4. Declarations of types -/

/-- Writes an interface. -/
def interface (pr : Writer) (name generics parents members : Tree) : Print := do
  raw "interface "
  pr name .free
  unless generics.isAbsent do pr generics .free
  unless parents.isAbsent do
    raw " extends "
    separated comma (pr · .free) parents.parts
  space
  membersOnLines pr members.parts

/-- Writes an alias of a type. -/
def typeAlias (pr : Writer) (isDeclare : Bool) (name generics type : Tree) : Print := do
  when isDeclare (raw "declare ")
  raw "type "
  pr name .free
  unless generics.isAbsent do pr generics .free
  space
  char '='
  space
  pr type .free

/-- Writes a member of an enumeration. -/
def enumMember (pr : Writer) (computed : Bool) (k value : Tree) : Print := do
  key pr computed k
  unless value.isAbsent do
    space
    char '='
    space
    pr value .item

/-- Writes an enumeration. -/
def enum (pr : Writer) (isConst isDeclare : Bool) (name : Tree) (members : List Tree) : Print := do
  beforeName
  when isDeclare (raw "declare ")
  when isConst (raw "const ")
  raw "enum "
  pr name .free
  char ' '
  braces members.isEmpty do
    separated (do char ','; newline)
      (fun t => do
        commentsAt t.span.start
        indent
        pr t .free)
      members
    unless members.isEmpty do newline

/-- Writes the body of a namespace. -/
def namespaceBody (pr : Writer) (body : Tree) : Print := do
  let directives := body.part 0
  let list := body.part 1
  braces (directives.parts.isEmpty && list.parts.isEmpty) do
    directivesAndStatements pr directives list
  dropSemicolon

/-- Writes a namespace, unless it is part of the name of another. -/
def «namespace» (pr : Writer) (keyword : String) (isDeclare nested : Bool) (name body : Tree) :
    Print := do
  unless nested do
    when isDeclare (raw "declare ")
    raw keyword
    unless name.isAbsent do char ' '
  unless name.isAbsent do moduleName pr name
  match body.label with
  | .absent => char ';'
  | .namespace .. =>
    char '.'
    pr body { sameLine := true, noCall := true }
  | _ =>
    space
    namespaceBody pr body

/-- Writes an import that is an alias. -/
def importEquals (pr : Writer) (name reference : Tree) : Print := do
  raw "import "
  pr name .free
  raw " = "
  pr reference .free

end PackageRefs.Script.Printer
