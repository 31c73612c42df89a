/-
# Shorter templates

A template is a list of pieces: a text, an expression, a text, and so on, with a text at both ends.
Constants among the expressions become text, and what is added to a template becomes part of it.
-/
import PackageRefs.Script.Compress.Unused

namespace PackageRefs.Script.Compress

/-- The text of a quasi. -/
def cookedText? : Tree → Option String
  | .node (.quasi _ cooked) _ _ => cooked
  | _ => none

/-- A text as it is written in a template. -/
def rawText : List Char → List Char
  | [] => []
  | c :: r =>
    let next := rawText r
    if c == '\x60' || c == '\\' || c == '$' then '\\' :: c :: next
    else if c == '\r' && r.head? == some '\n' then '\\' :: 'r' :: next
    else c :: next

/-- A text as a piece of a template. -/
def quasiOf (s : String) : Tree := .make (.quasi (String.ofList (rawText s.toList)) (some s)) []

/-- Two texts of a template put together. -/
def joinQuasis (a b : Tree) : Tree :=
  match a.label, b.label with
  | .quasi rawA cookedA, .quasi rawB cookedB =>
    let cooked :=
      match cookedA, cookedB with
      | some s, some t => some (s ++ t)
      | _, _ => none
    .node (.quasi (rawA ++ rawB) cooked) a.span []
  | _, _ => a

/-- The pieces of two templates one after the other. -/
def joinPieces : List Tree → List Tree → List Tree
  | [], more => more
  | [q], next :: more => joinQuasis q next :: more
  | t :: ts, more => t :: joinPieces ts more

/-- The text that an expression without effects has in a template. -/
def quietText? (names : Names) (e : Tree) : Option String :=
  match e.text? with
  | some s => if e.acts names then none else some s
  | none => none

/-- The pieces of a template with its constant parts made text. -/
def templatePieces (names : Names) : List Tree → List Tree
  | [] => []
  | [q] => [q]
  | q :: e :: rest =>
    match quietText? names e with
    | some s => joinPieces [joinQuasis q (quasiOf s)] (templatePieces names rest)
    | none => q :: e :: templatePieces names rest

/-- A template. -/
def foldTemplate (names : Names) (span : Span) (parts : List Tree) : Tree :=
  let pieces := templatePieces names parts
  match pieces with
  | [q] =>
    match cookedText? q with
    | some s => .node (.string s false) span []
    | none => .node .template span pieces
  | _ => .node .template span pieces

/-- The sum of a template and another template or a constant, as one template. -/
def joinedTemplate? (names : Names) (l r : Tree) : Option Tree :=
  match l, r with
  | .node .template span ps, .node .template _ qs => some (.node .template span (joinPieces ps qs))
  | .node .template span ps, r =>
    (quietText? names r).map fun s => .node .template span (joinPieces ps [quasiOf s])
  | l, .node .template span qs =>
    (quietText? names l).map fun s => .node .template span (joinPieces [quasiOf s] qs)
  | _, _ => none

end PackageRefs.Script.Compress
