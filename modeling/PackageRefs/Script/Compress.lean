/-
# Compressing a script

A script that does the same with a shorter text: constant expressions are computed, statements joined,
and declarations without use left out.

A tree is gone over from its leaves to its root, again and again until nothing changes any more, but
ten times at most.  The names of variables below the top of the script must be distinct (see
`Script.Scope`); shortening them is another matter (see `Script.ShortName`).
-/
import PackageRefs.Script.Compress.Statement

namespace PackageRefs.Script.Compress

/-- The rules for a node whose parts are short already, given what is done with it. -/
def shortNode (names : Names) (purpose : Purpose) (t : Tree) : Tree :=
  shortStatement names (shortExpression names purpose t)

/-- What is deleted, in a shorter form: a value that nothing is deleted by must not become a name or an
access. -/
def asDeleted (old new : Tree) : Tree :=
  let refers (t : Tree) := passesReceiver t || t.identifierName?.isSome
  if refers new && !refers old then .make .sequence [.ofNumber .zero, new] else new

/-- The operand of `typeof`, in a shorter form: reading a name that the script does not declare may fail
where asking for its kind does not, so a value must not become such a name. -/
def asKindOf (names : Names) (old new : Tree) : Tree :=
  if new.identifierName?.any names.isGlobal && old.identifierName?.isNone then
    .make .sequence [.ofNumber .zero, new]
  else new

/-- The statement that a label or `with` is put before, in a shorter form; an empty block stays one. -/
def asBody (old new : Tree) : Tree :=
  if old.label == .block && new.label == .emptyStatement then .blockOf [] else new

mutual

/-- The tree in a shorter form, given what is done with it.  A type that is a literal stays as it is, the
pieces of a template behind a tag count for themselves, the expression that an arrow function gives
back is no statement without use, the statements of a function are a list with an end of its own, the
subject of a `switch` stands outside its block, and a call of `concat` waits for those that go on from
it. -/
def shortTree (names : Names) (purpose : Purpose) : Tree → Tree
  | .node .literalType span parts => .node .literalType span parts
  | .node .taggedTemplate span [tag, generics, .node .template s pieces] =>
    .node .taggedTemplate span
      [asValue tag (shortTree names .callee tag), generics,
        .node .template s (shortTrees names (fun _ => .value) pieces)]
  | .node (.call optional isPure) span (callee :: rest) =>
    shortNode names purpose
      (.node (.call optional isPure) span
        (asValue callee (shortTree names .callee callee) ::
          shortTrees names (fun _ => .value) rest))
  | .node (.member "concat" optional) span
      [.node (.call false isPure) s (.node (.member "concat" false) t [object] :: generics :: args)] =>
    let callee := shortTree names .callee (.node (.member "concat" false) t [object])
    shortNode names purpose
      (.node (.member "concat" optional) span
        [innerConcat isPure s callee generics (shortTrees names (fun _ => .value) args)])
  | .node (.unary .deleteOf) span [e] =>
    .node (.unary .deleteOf) span [asDeleted e (shortTree names .value e)]
  | .node (.unary .typeOf) span [e] =>
    shortNode names .value
      (.node (.unary .typeOf) span [asKindOf names e (shortTree names .value e)])
  | .node (.arrow isAsync true wrapped isPure) span [generics, list, type,
      .node .functionBody s [directives, .node .statements t [.node .expressionStatement u [e]]]] =>
    let inner := names.inside (.node (.arrow isAsync true wrapped isPure) span [generics, list, type,
      .node .functionBody s [directives, .node .statements t [.node .expressionStatement u [e]]]])
    shortNode names .value
      (.node (.arrow isAsync true wrapped isPure) span [generics, shortTree inner .value list, type,
        .node .functionBody s
          [directives,
            .node .statements t [.node .expressionStatement u [shortTree inner .value e]]]])
  | .node (.labeled name) span [body] =>
    shortNode names .value
      (.node (.labeled name) span [asBody body (shortTree names .value body)])
  | .node .with span [object, body] =>
    .node .with span [shortTree names .value object, asBody body (shortTree names .value body)]
  | .node .functionBody span [directives, .node .statements s ts] =>
    shortNode names .value
      (.node .functionBody span
        [directives, .node .statements s (shortTrees names (fun _ => .value) ts)])
  | .node .switch span (subject :: cases) =>
    let inner := names.inside (.node .switch span (subject :: cases))
    shortNode names .value
      (.node .switch span
        (shortTree names .value subject :: shortTrees inner (fun _ => .value) cases))
  | .node label span parts =>
    let inner := names.inside (.node label span parts)
    shortNode names purpose (.node label span (shortTrees inner (Purpose.ofPart label) parts))

/-- Trees in shorter forms, given what is done with the tree of each index. -/
def shortTrees (names : Names) (purposes : Nat → Purpose) : List Tree → List Tree
  | [] => []
  | t :: ts => shortTree names (purposes 0) t :: shortTrees names (fun i => purposes (i + 1)) ts

end

/-- What is known about the names of a script.  In the first round a function is known to be harmless
only behind its text, and in every later one throughout the script. -/
def knownNames (isModule isFirst : Bool) (program : Tree) : Names :=
  let names := Names.of isModule program
  let found := program.harmlessFunctions names
  { names with
    harmless := if isFirst then found else found.map ({ · with stop := 0 })
    constants := .ofList (program.gather (constantsInList names)) }

/-- One round over a script. -/
def round (isModule isFirst : Bool) (program : Tree) : Tree :=
  let names := knownNames isModule isFirst program
  shortTree names .value ((inlineConstants names program).run []).1

/-- Rounds over a script until nothing changes any more; the fuel bounds their number. -/
def rounds (isModule isFirst : Bool) : Nat → Tree → Tree
  | 0, t => t
  | fuel + 1, t =>
    let next := round isModule isFirst t
    if next.same t then t else rounds isModule false fuel next

end Compress

/-- A script that does the same with a shorter text. -/
def Tree.compressed (isModule : Bool) (program : Tree) : Tree :=
  Compress.rounds isModule true 10 (Compress.normalize (Names.of isModule program) program)

end PackageRefs.Script
