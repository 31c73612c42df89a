/-
# Shorter statements

The rules for single statements and for lists of them.

**Lists.**  A list is gone over from its start.  The statements kept so far lie on a stack, and each
new statement is put on top of it, which may join it with the statement below: two expressions
become one, an expression goes into the test or the value of the statement after it, and declarations
of the same kind become one.  After a jump nothing is kept but what declares a name for the whole
function.

**Ends.**  At the end of a list, `if (a) return b; return c` becomes one `return`, and a jump that
goes where the list ends anyway is dropped.
-/
import PackageRefs.Script.Compress.CopiedArguments
import PackageRefs.Script.Compress.Expression
import PackageRefs.Script.Compress.Inline

namespace PackageRefs.Script.Compress

/-! ## 1. Kinds of statements -/

/-- The statement leaves the list that it stands in. -/
def isJump (t : Tree) : Bool :=
  match t.label with
  | .return | .throw | .break _ | .continue _ => true
  | _ => false

/-- The statement declares a name for its block only, so it cannot leave the block. -/
def bindsInBlock (t : Tree) : Bool :=
  match t.label with
  | .variableList .var _ => false
  | .variableList _ _ | .function .declaration .. | .class true .. | .enum .. | .namespace ..
  | .interface | .typeAlias _ | .importEquals => true
  | _ => false

/-- The expression, if the statement is only one. -/
def expression? : Tree → Option Tree
  | .node .expressionStatement _ [e] => some e
  | _ => none

/-- The statement does nothing. -/
def isEmpty (t : Tree) : Bool := t.isAbsent || t.statementList.isEmpty

/-- Statements as one statement. -/
def oneStatement (ts : List Tree) : Tree :=
  match ts with
  | [] => .emptyStatement
  | [t] => if bindsInBlock t then .blockOf [t] else t
  | ts => .blockOf ts

/-- A declaration without values of the variables whose declarations are lost, if they are used. -/
def declarationOf (names : Names) (lost : List String) : List Tree :=
  let lost := lost.eraseDups.filter fun name => !names.isUnused name
  if lost.isEmpty then []
  else
    [.make (.variableList .var false) (lost.map fun name =>
      .make (.declarator false) [.make (.binding name) [], .absent])]

/-- The statements of a branch, for a list that the branch becomes a part of; what it declares stays in a
block. -/
def branchList (t : Tree) : List Tree :=
  let ts := t.statementList
  if ts.any bindsInBlock then [.blockOf ts] else ts

/-! ## 2. Branches -/

/-- The statement chosen by a test that is known, with the variables that the other one declares. -/
def chosen (names : Names) (kept lost : Tree) : List Tree :=
  (if kept.isAbsent then [] else [kept]) ++ declarationOf names lost.hoistedNames

/-- A conditional statement. -/
def shortIf (names : Names) (span : Span) (test yes no : Tree) : Tree :=
  let test := simplifiedTest names test
  match truth? names test with
  | some b =>
    let kept := if b then chosen names yes no else chosen names no yes
    oneStatement ((if test.acts names then [.asStatement test] else []) ++ kept)
  | none =>
    if isEmpty yes then
      if isEmpty no then .asStatement test
      else
        match expression? no with
        | some e =>
          match test with
          | .node (.unary .logicalNot) _ [inner] => .asStatement (andOr .and inner e)
          | _ => .asStatement (andOr .or test e)
        | none => .node .if span [oppositeTest names test, no, .absent]
    else if isEmpty no then
      match expression? yes, test with
      | some e, .node (.unary .logicalNot) _ [inner] => .asStatement (andOr .or inner e)
      | some e, _ => .asStatement (andOr .and test e)
      | none, _ =>
        match yes with
        | .node .if _ [inner, then_, otherwise] =>
          if otherwise.isAbsent then .node .if span [andOr .and test inner, then_, .absent]
          else .node .if span [test, yes, .absent]
        | _ => .node .if span [test, yes, .absent]
    else
      match expression? yes, expression? no, test with
      | some a, some b, _ => .asStatement (choose names test a b)
      | none, _, .node (.unary .logicalNot) _ [inner] => .node .if span [inner, no, yes]
      | _, _, _ => .node .if span [test, yes, no]

/-! ## 3. Declarations -/

/-- The variable and its value may go if nothing uses the variable. -/
def isUnusedDeclarator (names : Names) (kind : VariableKind) (d : Tree) : Bool :=
  match kind, (d.part 0).plainName? with
  | .using, _ | .awaitUsing, _ => false
  | _, some name => names.isUnused name
  | _, none => false

/-- A variable whose value is undefined needs no value. -/
def shortDeclarator (kind : VariableKind) : Tree → Tree
  | .node (.declarator definite) span [pattern, value] =>
    match kind, pattern.plainName? with
    | .let, some _ =>
      if value.constant? == some .undefined then .node (.declarator definite) span [pattern, .absent]
      else .node (.declarator definite) span [pattern, value]
    | _, _ => .node (.declarator definite) span [pattern, value]
  | d => d

/-! ## 4. Lists -/

/-- Puts an expression before the first expression that a statement evaluates, if it has one. -/
def absorb (names : Names) (before : Tree) : Tree → Option Tree
  | .node .expressionStatement span [e] =>
    some (.node .expressionStatement span [.andThen before e])
  | .node .return span [e] =>
    if e.isAbsent then none else some (.node .return span [.andThen before e])
  | .node .throw span [e] => some (.node .throw span [.andThen before e])
  | .node .if span [test, yes, no] => some (shortIf names span (.andThen before test) yes no)
  | .node .switch span (subject :: cases) =>
    some (.node .switch span (.andThen before subject :: cases))
  | .node .for span [first, test, step, body] =>
    match first.label with
    | .absent => some (.node .for span [before, test, step, body])
    | .variableList .. => none
    | _ => some (.node .for span [.andThen before first, test, step, body])
  | .node .forIn span [left, right, body] =>
    some (.node .forIn span [left, .andThen before right, body])
  | _ => none

/-- The declaration of a single variable by `var`, if it gives no value and the target is the variable. -/
def declaresTarget (declaration target : Tree) : Bool :=
  match declaration with
  | .node (.variableList .var _) _ [.node (.declarator _) _ [pattern, value]] =>
    value.isAbsent && target.identifierName?.isSome && pattern.plainName? == target.identifierName?
  | _ => false

/-- Puts a declaration of `var` into the loop after it. -/
def declareInLoop (kind : VariableKind) (declaration : Tree) : Tree → Option Tree
  | .node .for span [first, test, step, body] =>
    if kind != .var then none
    else
      match first.label with
      | .absent => some (.node .for span [declaration, test, step, body])
      | .variableList .var isDeclare =>
        some (.node .for span
          [.node (.variableList .var isDeclare) first.span (declaration.parts ++ first.parts),
            test, step, body])
      | _ => none
  | .node .forIn span [left, right, body] =>
    if declaresTarget declaration left then some (.node .forIn span [declaration, right, body])
    else none
  | .node (.forOf isAwait) span [left, right, body] =>
    if declaresTarget declaration left then
      some (.node (.forOf isAwait) span [declaration, right, body])
    else none
  | _ => none

/-- Declarators, the last one first, with a value for a variable among them that has none.  The value is
computed earlier then: before those of the declarators behind it, which must be literals. -/
def withValue? (name : String) (value : Tree) : List Tree → Option (List Tree)
  | .node (.declarator definite) span [pattern, old] :: ds =>
    if pattern.plainName? == some name then
      if old.isAbsent then some (.node (.declarator definite) span [pattern, value] :: ds) else none
    else if pattern.plainName?.isSome && (old.isAbsent || isLiteralValue true old) then
      (withValue? name value ds).map fun ds => .node (.declarator definite) span [pattern, old] :: ds
    else none
  | _ => none

/-- Declarators with the values that the expressions right after them assign, as far as they are such
assignments, and the expressions that are left.  A variable of a block is not to be used before it has
its value, so that only a literal can be its first one. -/
def takeAssignments (kind : VariableKind) (ds : List Tree) : List Tree → List Tree × List Tree
  | [] => (ds, [])
  | e :: es =>
    let taken :=
      match e with
      | .node (.assign .plain) _ [.node (.identifier name) _ _, value] =>
        if kind == .var || (kind == .let && isLiteralValue true value) then
          (withValue? name value ds.reverse).map List.reverse
        else none
      | _ => none
    match taken with
    | some ds => takeAssignments kind ds es
    | none => (ds, e :: es)

/-- Takes the assignments that an expression begins with into the declaration before it: the declarators,
and what is left of the expression. -/
def takenInto (kind : VariableKind) (ds : List Tree) (e : Tree) : List Tree × Option Tree :=
  let (ds, rest) := takeAssignments kind ds e.items
  (ds, if rest.isEmpty then none else some (.sequenceOf rest))

/-- A declaration, and the statement after it without the assignments that the declaration takes up. -/
def takeIntoDeclaration (kind : VariableKind) (ds : List Tree) : Tree → List Tree × Option Tree
  | .node .expressionStatement span [e] =>
    let (ds, rest) := takenInto kind ds e
    (ds, rest.map fun e => .node .expressionStatement span [e])
  | .node .for span [first, test, step, body] =>
    match first.label with
    | .absent | .variableList .. => (ds, some (.node .for span [first, test, step, body]))
    | _ =>
      let (ds, rest) := takenInto kind ds first
      (ds, some (.node .for span [.ofOption rest, test, step, body]))
  | t => (ds, some t)

/-- The two statements are the same jump. -/
def sameJump (a b : Tree) : Bool := isJump a && a.same b

/-- Puts a statement on top of those before it, joining it with the last if they can be one. -/
def push (names : Names) (t : Tree) (before : List Tree) : List Tree :=
  match before with
  | .node .expressionStatement span [e] :: rest =>
    match absorb names e t with
    | some joined => joined :: rest
    | none => t :: .node .expressionStatement span [e] :: rest
  | .node (.variableList kind false) span ds :: rest =>
    match t with
    | .node (.variableList other false) _ more =>
      if other == kind then .node (.variableList kind false) span (ds ++ more) :: rest
      else t :: before
    | _ =>
      let (ds, left) := takeIntoDeclaration kind ds t
      let declaration := Tree.node (.variableList kind false) span ds
      match left with
      | some t =>
        match declareInLoop kind declaration t with
        | some joined => joined :: rest
        | none => t :: declaration :: rest
      | none => declaration :: rest
  | .node .if span [test, yes, no] :: rest =>
    match t with
    | .node .if _ [second, then_, otherwise] =>
      if no.isAbsent && otherwise.isAbsent && sameJump yes then_ then
        .node .if span [andOr .or test second, then_, .absent] :: rest
      else t :: before
    | _ => t :: before
  | _ => t :: before

/-- Puts an expression on top of the statements before it, if anything is left of it. -/
def pushExpression (names : Names) (e : Tree) (before : List Tree) : List Tree :=
  match e.remains names with
  | some rest => push names (.asStatement rest) before
  | none => before

/-- Puts the variables of a declaration on top of the statements before them. -/
def pushVariables (names : Names) (kind : VariableKind) (isDeclare : Bool) (span : Span) :
    List Tree → List Tree → List Tree
  | [], before => before
  | d :: ds, before =>
    let before :=
      if isUnusedDeclarator names kind d then
        if (d.part 1).isAbsent then before else pushExpression names (d.part 1) before
      else
        let single := Tree.node (.variableList kind isDeclare) span [shortDeclarator kind d]
        let (t, before) := substituteInto names single before
        push names t before
    pushVariables names kind isDeclare span ds before

/-- Puts a statement, or what is left of it, on top of those before it. -/
def pushStatement (names : Names) (t : Tree) (before : List Tree) : List Tree :=
  let (t, before) := substituteInto names t before
  match t with
  | .node .emptyStatement _ _ => before
  | .node .expressionStatement _ [e] => pushExpression names e before
  | .node (.variableList kind isDeclare) span ds =>
    pushVariables names kind isDeclare span ds before
  | .node (.function .declaration ..) _ (name :: _) =>
    match name.label with
    | .binding s => if names.isUnusedHere s then before else t :: before
    | _ => t :: before
  | .node (.class true ..) _ (marks :: name :: rest) =>
    match name.label with
    | .binding s =>
      match if names.isUnusedHere s then classRemains names (marks :: name :: rest) else none with
      | some es => if es.isEmpty then before else pushExpression names (.sequenceOf es) before
      | none => t :: before
    | _ => t :: before
  | .node .if span [test, yes, no] =>
    if isJump yes && !no.isAbsent then
      -- what follows a jump needs no `else`
      let first := push names (.node .if span [test, yes, .absent]) before
      (branchList no).foldl (fun done s => push names s done) first
    else push names t before
  | _ => push names t before

/-- The statement counts wherever it stands in its list. -/
def survivesJump (t : Tree) : Bool :=
  match t.label with
  | .function .declaration .. | .importDeclaration .. | .exportNamed _ | .exportAll _
  | .exportDefault | .exportAssignment | .exportAsNamespace _ => true
  | _ => false

/-- Statements with the blocks among them opened whose declarations are not bound to them. -/
def opened (ts : List Tree) : List Tree :=
  ts.flatMap fun t => if t.statementList.any bindsInBlock then [t] else t.statementList

/-- What is left of the statements behind a jump: declarations for the whole function. -/
def behindJump (names : Names) (ts : List Tree) (done : List Tree) : List Tree :=
  let kept := (ts.filter survivesJump).foldl (fun done t => pushStatement names t done) done
  declarationOf names (hoistedNamesOfAll ts) ++ kept

/-- Puts the statements of a list on top of each other. -/
def pushAll (names : Names) (done : List Tree) : List Tree → List Tree
  | [] => done
  | t :: ts =>
    let done := pushStatement names t done
    if done.head?.any isJump then behindJump names ts done else pushAll names done ts

/-- Joins the last statement with one before it, if the two are one. -/
def joinEnd (names : Names) (last before : Tree) : Option Tree :=
  match last, before with
  | .node .return span [value], .node .if _ [test, .node .return _ [other], no] =>
    if !no.isAbsent then none
    else
      let orUndefined (t : Tree) := if t.isAbsent then Tree.undefined else t
      some (.node .return span [choose names test (orUndefined other) (orUndefined value)])
  | .node .throw span [value], .node .if _ [test, .node .throw _ [other], no] =>
    if no.isAbsent then some (.node .throw span [choose names test other value]) else none
  | _, .node .expressionStatement _ [e] =>
    if isJump last then absorb names e last else none
  | _, _ => none

/-- Joins the last statement with those before it as long as they can be one; the latest first. -/
def joinEnds (names : Names) (last : Tree) : List Tree → List Tree
  | [] => [last]
  | t :: ts =>
    match joinEnd names last t with
    | some joined => joinEnds names joined ts
    | none => last :: t :: ts

/-- A list of statements. -/
def shortList (names : Names) (ts : List Tree) : List Tree :=
  match pushAll names [] (opened ts) with
  | last :: before => (joinEnds names last before).reverse
  | [] => []

/-! ## 5. Ends of functions and of loops -/

/-- The jump goes where the list ends anyway. -/
abbrev IsIdleJump := Tree → Bool

/-- A `return` without a value. -/
def returnsNothing : IsIdleJump
  | .node .return _ [value] => value.isAbsent
  | _ => false

/-- A `continue` of the innermost loop. -/
def continuesLoop : IsIdleJump
  | .node (.continue none) _ _ => true
  | _ => false

/-- A list of statements without jumps to its own end: the last statement is no such jump, and what
follows a conditional one becomes the other branch. -/
def withoutIdleJumps (names : Names) (idle : IsIdleJump) : List Tree → List Tree
  | [] => []
  | [t] => if idle t then [] else [withoutIdle t]
  | .node .if span [test, yes, no] :: rest =>
    let others := withoutIdleJumps names idle rest
    if idle yes && !(no.statementList ++ rest).any bindsInBlock then
      [shortIf names span (oppositeTest names test)
        (oneStatement (shortList names (no.statementList ++ others))) .absent]
    else .node .if span [test, yes, no] :: others
  | t :: rest => t :: withoutIdleJumps names idle rest
where
  /-- A last conditional statement without a branch that only jumps. -/
  withoutIdle : Tree → Tree
    | .node .if span [test, yes, no] =>
      if idle yes then
        if no.isAbsent then .asStatement test
        else shortIf names span (oppositeTest names test) no .absent
      else .node .if span [test, yes, no]
    | t => t

/-- The body of a loop that has its test in front. -/
def shortBody (names : Names) : Tree → Tree
  | .node .block span [.node .statements s ts] =>
    let ts := withoutIdleJumps names continuesLoop ts
    if ts.any bindsInBlock then .node .block span [.node .statements s ts] else oneStatement ts
  | t => t

/-- What gives nothing back at the end of a function's statements: a value that is thrown away is a
statement.  An asynchronous generator waits for what it gives back. -/
def withoutVoidReturn (names : Names) (ts : List Tree) : List Tree :=
  match ts.getLast? with
  | some (.node .return span [e]) =>
    match e.items.getLast? with
    | some (.node (.unary .voidOf) _ [thrown]) =>
      if names.place.isAsyncGenerator then ts
      else
        ts.dropLast ++
          [.node .expressionStatement span [.sequenceOf (e.items.dropLast ++ [thrown])]]
    | _ => ts
  | _ => ts

/-- The statement leaves the innermost loop. -/
def breaksLoop (t : Tree) : Bool := t.label == .break none

/-- A loop that begins with a test whether to leave it has that test in its head. -/
def leaveByTest (names : Names) (span : Span) (first test step body : Tree) : Tree :=
  let both (more : Tree) := if test.isAbsent then more else andOr .and test more
  match body.statementList with
  | .node .if _ [leave, yes, no] :: rest =>
    if breaksLoop yes then
      .node .for span [first, both (oppositeTest names leave), step,
        oneStatement (branchList no ++ rest)]
    else if breaksLoop no then
      .node .for span [first, both leave, step, oneStatement (branchList yes ++ rest)]
    else .node .for span [first, test, step, body]
  | _ => .node .for span [first, test, step, body]

/-- A loop with its test in front. -/
def shortFor (names : Names) (span : Span) (first test step body : Tree) : Tree :=
  let test := if test.isAbsent then test else simplifiedTest names test
  let step := if step.isAbsent then step else .ofOption (step.remains names)
  let first :=
    match first.label with
    | .absent | .variableList .. => first
    | _ => .ofOption (first.remains names)
  let known := if test.isAbsent then none else truth? names test
  let body := shortBody names body
  match known, test.acts names with
  | some true, false => leaveByTest names span first .absent step body
  | some false, false =>
    let lost := declarationOf names body.hoistedNames
    match first.label with
    | .variableList .var _ => oneStatement (first :: lost)
    | .absent | .variableList .. => oneStatement lost
    | _ => .node .for span [first, test, step, body]
  | _, _ => leaveByTest names span first test step body

/-- A block of statements as one statement, if it can be. -/
def shortBlock (span : Span) (list : Tree) : Tree :=
  match list.parts with
  | [] => .emptyStatement
  | [t] => if bindsInBlock t then .node .block span [list] else t
  | _ => .node .block span [list]

/-- What catches errors, without a name for the error if nothing uses it. -/
def shortHandler (names : Names) : Tree → Tree
  | .node .catch span [pattern, block] =>
    match pattern.plainName? with
    | some name =>
      if Names.isNumbered name && names.isUnused name then .node .catch span [.absent, block]
      else .node .catch span [pattern, block]
    | none => .node .catch span [pattern, block]
  | t => t

/-- What catches errors where there are none: only the variables that it declares are left. -/
def idleHandler (names : Names) : Tree → Tree
  | .node .catch span [pattern, block] =>
    .node .catch span [pattern, .blockOf (declarationOf names block.hoistedNames)]
  | t => t

/-- A statement that tries a block. -/
def shortTry (names : Names) (span : Span) (inner handler finalizer : Tree) : Tree :=
  let isIdle := inner.statementList.isEmpty
  let handler := shortHandler names (if isIdle then idleHandler names handler else handler)
  let finalizer :=
    if !handler.isAbsent && finalizer.statementList.isEmpty then .absent else finalizer
  if isIdle && (handler.part 1).statementList.isEmpty then
    if isEmpty finalizer then .emptyStatement else finalizer
  else .node .try span [inner, handler, finalizer]

/-- A statement with a label; one that begins by leaving itself does nothing. -/
def shortLabeled (names : Names) (name : String) (span : Span) (body : Tree) : Tree :=
  match body.label, body.statementList with
  | .emptyStatement, _ => body
  | _, .node (.break target) _ _ :: _ =>
    if target == some name then oneStatement (declarationOf names body.hoistedNames)
    else .node (.labeled name) span [body]
  | _, _ => .node (.labeled name) span [body]

/-! ## 6. All statements -/

/-- Blocks stay blocks where the grammar asks for them. -/
def asBlock (t : Tree) : Tree :=
  match t.label with
  | .block | .absent => t
  | .emptyStatement => .blockOf []
  | _ => .blockOf [t]

/-- The rules for a statement whose parts are short already. -/
def shortStatement (names : Names) : Tree → Tree
  | .node label span parts =>
    match label, parts with
    | .statements, _ => .node .statements span (shortList names parts)
    | .expressionStatement, [e] =>
      ((e.remains names).map fun e => .node .expressionStatement span [e]).getD .emptyStatement
    | .functionBody, [directives, .node .statements s ts] =>
      let ts := withoutVoidReturn names (opened ts)
      let ts := withoutIdleJumps names returnsNothing (pushAll names [] ts).reverse
      .node .functionBody span [directives, .node .statements s (shortList names ts)]
    | .block, [list] => shortBlock span list
    | .if, [test, yes, no] => shortIf names span test yes no
    | .for, [first, test, step, body] =>
      (copiedArguments? names span parts).getD (shortFor names span first test step body)
    | .forIn, [left, right, body] => .node label span [left, right, shortBody names body]
    | .forOf _, [left, right, body] => .node label span [left, right, shortBody names body]
    | .doWhile, [body, test] => .node label span [body, simplifiedTest names test]
    | .labeled name, [body] => shortLabeled names name span body
    | .return, [e] =>
      let idle := e.constant? == some .undefined && !names.place.isAsyncGenerator
      .node .return span [if idle then .absent else e]
    | .try, [inner, handler, finalizer] =>
      shortTry names span (asBlock inner)
        (match handler with
          | .node .catch s [pattern, block] => .node .catch s [pattern, asBlock block]
          | t => t)
        (asBlock finalizer)
    | _, _ => .node label span parts

end PackageRefs.Script.Compress
