/-
# Reading token by token

What a reader does with a given text is worked out in two steps.  `StartsWith` says which token a text
starts with, whatever the state of the reader; `nextOn_token` says that the reader has this token in hand
then, and `nextOn_clean` that nothing is wrong so far.  The rules of the grammar are run on states of which
only the tokens are known.

`Step.Meets` states what reading comes to when it may be given up on the way: the one condition for that,
`lost`, goes through from each step to the whole (`bind_meets`).

The one statement that is followed here is the import of a module for its effect alone
(`statement_of_import`).  Before a broken token it is given up (`statement_of_broken`).
-/
import Mathlib.Tactic.Common
import PackageRefs.Script.Parser

namespace PackageRefs.Script

open PackageRefs.Text

/-! ## 1. The first token of a text -/

/-- Behind white space, the text starts with the token.  `rest` is the text after the token, and
`complaints` are about the token. -/
def StartsWith (text : List Char) (lexeme : Lexeme) (rest : List Char)
    (complaints : List Diagnostic) : Prop :=
  ∀ isModule pos log fresh, ∃ trivia stop,
    Lexer.skipTrivia isModule .code text pos log fresh = trivia ∧ trivia.unterminated = false ∧
      trivia.log.sawHarmlessFunction = log.sawHarmlessFunction ∧
      Parser.isStray trivia.rest = false ∧
      Parser.lexToken trivia.rest trivia.pos = ⟨lexeme, rest, stop, complaints⟩

/-- In no dialect does white space or a comment start with the character. -/
def isSolid (c : Char) : Bool :=
  !(Lexer.isLineBreak c || Lexer.isInlineSpace c || c == '/' || c == '<' || c == '-')

theorem skipTrivia_of_solid {c : Char} (hc : isSolid c = true) (isModule : Bool) (text : List Char)
    (pos : Nat) (log : CommentLog) (fresh : Bool) :
    Lexer.skipTrivia isModule .code (c :: text) pos log fresh =
      { rest := c :: text, pos, log, onNewLine := fresh } := by
  simp only [isSolid, Bool.not_eq_true', Bool.or_eq_false_iff, beq_eq_false_iff_ne] at hc
  obtain ⟨⟨⟨⟨hbreak, hspace⟩, hslash⟩, hless⟩, hminus⟩ := hc
  rw [Lexer.skipTrivia]
  · simp [hbreak, hspace, hless, hminus]
  -- neither kind of comment starts here
  · exact fun _ h _ => hslash h
  · exact fun _ h _ => hslash h

section

variable {text rest : List Char} {lexeme : Lexeme} {complaints : List Diagnostic}

theorem startsWith_of_lexToken {c : Char} (hc : isSolid c = true)
    (hstray : Parser.isStray (c :: text) = false)
    (hlex : ∀ pos, ∃ stop, Parser.lexToken (c :: text) pos = ⟨lexeme, rest, stop, complaints⟩) :
    StartsWith (c :: text) lexeme rest complaints := by
  intro isModule pos log fresh
  obtain ⟨stop, hstop⟩ := hlex pos
  exact ⟨_, stop, skipTrivia_of_solid hc isModule text pos log fresh, rfl, rfl, hstray, hstop⟩

theorem startsWith_space (h : StartsWith text lexeme rest complaints) :
    StartsWith (' ' :: text) lexeme rest complaints := by
  intro isModule pos log fresh
  have hskip : Lexer.skipTrivia isModule .code (' ' :: text) pos log fresh =
      Lexer.skipTrivia isModule .code text (pos + 1) log fresh := by
    simp [Lexer.skipTrivia, Lexer.isLineBreak, Lexer.isInlineSpace, isBlank]
  rw [hskip]
  exact h isModule (pos + 1) log fresh

theorem startsWith_lineFeed (h : StartsWith text lexeme rest complaints) :
    StartsWith ('\n' :: text) lexeme rest complaints := by
  intro isModule pos log fresh
  have hskip : Lexer.skipTrivia isModule .code ('\n' :: text) pos log fresh =
      Lexer.skipTrivia isModule .code text (pos + 1) log.newline true := by
    simp [Lexer.skipTrivia, Lexer.isLineBreak]
  have hlog : log.newline.sawHarmlessFunction = log.sawHarmlessFunction := by
    unfold CommentLog.newline
    split <;> rfl
  rw [hskip, ← hlog]
  exact h isModule (pos + 1) log.newline true

theorem startsWith_nil : StartsWith [] .endOfText [] [] :=
  fun _ pos _ _ => ⟨_, pos, rfl, rfl, rfl, rfl, rfl⟩

theorem startsWith_import (text : List Char) :
    StartsWith ('i' :: 'm' :: 'p' :: 'o' :: 'r' :: 't' :: ' ' :: text) (.word "import" false)
      (' ' :: text) [] := by
  have hfirst : isNameStart 'i' = true := by decide
  have hothers : isNamePart 'm' = true ∧ isNamePart 'p' = true ∧ isNamePart 'o' = true ∧
      isNamePart 'r' = true ∧ isNamePart 't' = true := by decide
  have hend : isNamePart ' ' = false := by decide
  refine startsWith_of_lexToken (by decide) ?_ fun pos => ⟨pos + 6, ?_⟩
  · simp [Parser.isStray, hfirst]
  · simp [Parser.lexToken, Lexer.readName, Lexer.readNameBody, hfirst, hothers, hend]

theorem startsWith_semicolon (text : List Char) : StartsWith (';' :: text) (.mark ";") text [] := by
  have hstart : isNameStart ';' = false := by decide
  have hdigit : isAsciiDigit ';' = false := by decide
  have hmark : Lexer.readMark (';' :: text) = some ";" := by
    simp [Lexer.readMark, Lexer.marks, List.isPrefixOf]
  have hlength : ";".length = 1 := rfl
  refine startsWith_of_lexToken (by decide) ?_ fun pos => ⟨pos + 1, ?_⟩
  · simp [Parser.isStray, hmark]
  · simp [Parser.lexToken, hstart, hdigit, hmark, hlength]

/-- A single quote starts the string that is read from what follows it. -/
theorem startsWith_quote
    (h : ∀ pos, ∃ stop, Lexer.readString '\'' text pos = ⟨lexeme, rest, stop, complaints⟩) :
    StartsWith ('\'' :: text) lexeme rest complaints := by
  have hstart : isNameStart '\'' = false := by decide
  have hdigit : isAsciiDigit '\'' = false := by decide
  refine startsWith_of_lexToken (by decide) ?_ fun pos => ?_
  · simp [Parser.isStray]
  · obtain ⟨stop, hstop⟩ := h (pos + 1)
    exact ⟨stop, by simp [Parser.lexToken, hstart, hdigit, hstop]⟩

end

/-! ## 2. The next token in hand -/

/-- Nothing is wrong so far, and no comment says that calls of the next function have no effect. -/
structure State.Clean (s : State) : Prop where
  lexical : s.lexical = []
  complaints : s.complaints = []
  shortDefaults : s.shortDefaults = []
  token : s.token.afterHarmlessFunction = false
  log : s.log.sawHarmlessFunction = false

namespace Parser

variable {α β : Type} {s t : State} {grammar : Grammar}

theorem nextOn_token {lexeme : Lexeme} {rest : List Char} {complaints : List Diagnostic}
    (fresh : Bool) (h : StartsWith s.rest lexeme rest complaints) :
    (nextOn fresh s).token.lexeme = lexeme ∧ (nextOn fresh s).rest = rest := by
  obtain ⟨trivia, stop, hskip, hclosed, -, hstray, hlex⟩ :=
    h s.dialect.isModule s.token.stop s.log fresh
  simp [nextOn, scan, hskip, hclosed, hstray, hlex]

/-- Nothing is wrong with a token that brings no complaint. -/
theorem nextOn_clean {lexeme : Lexeme} {rest : List Char} (fresh : Bool)
    (h : StartsWith s.rest lexeme rest []) (hs : s.Clean) : (nextOn fresh s).Clean := by
  obtain ⟨trivia, stop, hskip, hclosed, hlog, hstray, hlex⟩ :=
    h s.dialect.isModule s.token.stop s.log fresh
  constructor <;>
    simp [nextOn, scan, hskip, hclosed, hstray, hlex, hlog, CommentLog.token, hs.lexical,
      hs.complaints, hs.shortDefaults, hs.log]

/-! ## 3. One thing after another -/

theorem bind_ok {p : Parser α} {f : α → Parser β} {a : α} (h : p s = .ok a t) :
    (p >>= f) s = f a t := by
  simp only [bind, andThen, h]

theorem bump_eq (h : isDisguisedKeyword s.token = false) : bump s = .ok () (next s) := by
  simp [bump, bind, andThen, read, complainIf, h, result, bumpName, modify]

end Parser

/-- What a step comes to: what has been read and the state behind it satisfy `done`, or the reading is
given up, and then `lost` holds. -/
def Step.Meets {α : Type} (done : α → State → Prop) (lost : Prop) : Step α → Prop
  | .ok a s => done a s
  | .fatal _ _ => lost

theorem Step.Meets.imp {α : Type} {done done' : α → State → Prop} {lost lost' : Prop} {step : Step α}
    (h : step.Meets done lost) (hdone : ∀ a s, done a s → done' a s) (hlost : lost → lost') :
    step.Meets done' lost' := by
  cases step with
  | ok a s => exact hdone a s h
  | fatal d s => exact hlost h

namespace Parser

variable {α β : Type} {s t : State} {grammar : Grammar} {done : α → State → Prop}
  {also : β → State → Prop} {lost : Prop}

theorem result_meets {a : α} (h : done a s) : (result a s).Meets done lost := h

theorem bind_meets {p : Parser α} {f : α → Parser β} (hp : (p s).Meets done lost)
    (hf : ∀ a t, done a t → (f a t).Meets also lost) : ((p >>= f) s).Meets also lost := by
  simp only [bind, andThen]
  cases hstep : p s with
  | ok a t =>
    rw [hstep] at hp
    exact hf a t hp
  | fatal d t =>
    rw [hstep] at hp
    exact hp

/-! ## 4. An import for its effect -/

theorem stringLiteral_eq {value raw : String} {lone : Bool}
    (h : s.token.lexeme = .string value lone raw) :
    stringLiteral s =
      .ok (.node (.string value lone) ⟨s.token.start, s.token.stop⟩ []) (next s) := by
  have hplain : isDisguisedKeyword s.token = false := by simp [isDisguisedKeyword, h]
  unfold stringLiteral
  simp only [bind, andThen, here, read, lexeme, h]
  exact bind_ok (bump_eq hplain)

theorem importAttributes_eq {mark : String} (h : s.token.lexeme = .mark mark) :
    importAttributes s = .ok .absent s := by
  unfold importAttributes
  simp [bind, andThen, here, read, atWord, h, pure, result, onNewLine]

theorem semicolon_eq (h : s.token.lexeme = .mark ";") : semicolon s = .ok () (next s) := by
  have hplain : isDisguisedKeyword s.token = false := by simp [isDisguisedKeyword, h]
  have heat : eat ";" s = .ok true (next s) := by
    unfold eat
    simp only [bind, andThen, atMark, read, h, beq_self_eq_true, if_true, bump_eq hplain]
    rfl
  exact bind_ok heat

theorem importDeclaration_of_string {value raw : String} {lone : Bool} (start : Nat)
    (hstring : s.token.lexeme = .string value lone raw)
    (hmark : (next s).token.lexeme = .mark ";") :
    importDeclaration start s =
      .ok (.node (.importDeclaration false none) ⟨start, (next s).token.stop⟩
        [.absent, .node (.string value lone) ⟨s.token.start, s.token.stop⟩ [], .absent])
        (next (next s)) := by
  have hat : atString s = .ok true s := by simp [atString, read, hstring]
  unfold importDeclaration
  rw [bind_ok hat, if_pos rfl, bind_ok (stringLiteral_eq hstring),
    bind_ok (importAttributes_eq hmark), bind_ok (semicolon_eq hmark)]
  rfl

theorem importDeclaration_of_broken (start : Nat) (h : s.token.lexeme = .broken) :
    importDeclaration start s = .fatal (.expected "from" (Lexeme.describe .broken)) s := by
  unfold importDeclaration
  simp [bind, andThen, atString, here, read, h, word?, atMark, atName, missing]

/-- The word starts a declaration unless it stands for the module itself or for a function. -/
theorem statementIn_of_import (single : Bool) (hword : s.token.lexeme = .word "import" false)
    (hcall : isMark "(" (next s).token = false) (hmeta : isMark "." (next s).token = false) :
    statementIn grammar single s = importDeclaration s.token.start (next s) := by
  have hplain : isDisguisedKeyword s.token = false := by simp [isDisguisedKeyword, hword]
  unfold statementIn
  simp only [bind, andThen, here, read, lexeme, hword, nextIs, hcall, hmeta, Bool.or_self,
    Bool.false_eq_true, if_false]
  exact bind_ok (bump_eq hplain)

theorem goal_statement (fuel : Nat) (hs : s.Clean) :
    goal (fuel + 1) .statement s = statementIn (goal fuel) false s := by
  simp only [goal, bind, andThen, token, read, hs.token, Bool.false_eq_true, if_false]
  cases statementIn (goal fuel) false s <;> rfl

/-- **An import of a module for its effect** is read to its semicolon. -/
theorem statement_of_import {value raw : String} {lone : Bool} (fuel : Nat) (hs : s.Clean)
    (hword : s.token.lexeme = .word "import" false)
    (hstring : (next s).token.lexeme = .string value lone raw)
    (hmark : (next (next s)).token.lexeme = .mark ";") :
    ∃ span sourceSpan, goal (fuel + 1) .statement s =
      .ok (.node (.importDeclaration false none) span
        [.absent, .node (.string value lone) sourceSpan [], .absent]) (next (next (next s))) := by
  rw [goal_statement fuel hs, statementIn_of_import false hword (by simp [isMark, hstring])
    (by simp [isMark, hstring]), importDeclaration_of_string _ hstring hmark]
  exact ⟨_, _, rfl⟩

/-- **An import before a broken token** ends the reading. -/
theorem statement_of_broken (fuel : Nat) (hs : s.Clean)
    (hword : s.token.lexeme = .word "import" false)
    (hbroken : (next s).token.lexeme = .broken) :
    ∃ complaint, goal (fuel + 1) .statement s = .fatal complaint (next s) := by
  rw [goal_statement fuel hs, statementIn_of_import false hword (by simp [isMark, hbroken])
    (by simp [isMark, hbroken]), importDeclaration_of_broken _ hbroken]
  exact ⟨_, rfl⟩

/-! ## 5. A whole script -/

/-- One more statement of a list, if it does not end. -/
def listItem (grammar : Grammar) (close : Parser Bool) : Parser (Option Tree) := do
  if ← close then return none
  return some (← grammar .statement)

section

variable {close : Parser Bool} {done : Tree → State → Prop} {lost : Prop}

theorem listItem_of_closed (h : close s = .ok true s) : listItem grammar close s = .ok none s := by
  rw [listItem, bind_ok h]
  rfl

theorem listItem_meets (hopen : close s = .ok false s)
    (h : (grammar .statement s).Meets done lost) :
    (listItem grammar close s).Meets (fun item t => ∃ x, item = some x ∧ done x t) lost := by
  rw [listItem, bind_ok hopen]
  exact bind_meets h fun x _ hx => result_meets ⟨x, rfl, hx⟩

theorem directiveList_of_closed {fuel : Nat} (h : close s = .ok true s) :
    directiveList grammar close (fuel + 1) [] s = .ok ([], []) s := by
  rw [directiveList, bind_ok h]
  rfl

/-- The directives end before a statement that is none. -/
theorem directiveList_meets {fuel : Nat} (hopen : close s = .ok false s)
    (h : (grammar .statement s).Meets done lost)
    (hother : ∀ x t, done x t → ∀ raw, directive? raw x = none) :
    (directiveList grammar close (fuel + 1) [] s).Meets
      (fun parts t => ∃ x, parts = ([], [x]) ∧ done x t) lost := by
  have hraw : ∃ raw, rawString s = .ok raw s := ⟨_, rfl⟩
  obtain ⟨raw, hraw⟩ := hraw
  rw [directiveList, bind_ok hopen, if_neg (by simp), bind_ok hraw]
  refine bind_meets h fun x t hx => ?_
  rw [hother x t hx]
  exact result_meets ⟨x, rfl, hx⟩

end

/-- The tree of a script with the statements behind the directives. -/
def IsProgram (directives statements : List Tree) (t : Tree) : Prop :=
  ∃ span directivesSpan statementsSpan, t = .node (.program none) span
    [.node .directives directivesSpan directives, .node .statements statementsSpan statements]

theorem program_meets {first : List Tree × List Tree → State → Prop}
    {done : List Tree → List Tree → State → Prop} {lost : Prop}
    (hfirst : (directiveList grammar atEnd (s.rest.length + 2) [] s).Meets first lost)
    (hothers : ∀ parts t, first parts t →
      (many (listItem grammar atEnd) t).Meets (fun others => done parts.1 (parts.2 ++ others)) lost) :
    (program grammar none s).Meets (fun t u => ∃ directives statements,
      IsProgram directives statements t ∧ done directives statements u) lost := by
  have hhere : here s = .ok s.token.start s := rfl
  have hfuel : fuel s = .ok (s.rest.length + 2) s := rfl
  rw [program, bind_ok hhere]
  have hparts : (statementsUntil grammar atEnd s).Meets (fun parts u =>
      ∃ directives statements directivesSpan statementsSpan,
        parts = [.node .directives directivesSpan directives,
          .node .statements statementsSpan statements] ∧ done directives statements u) lost := by
    rw [statementsUntil, bind_ok hhere, bind_ok hfuel]
    refine bind_meets hfirst fun (directives, statements) t ht => ?_
    have hdirectives : node s.token.start .directives directives t =
      .ok (.node .directives ⟨s.token.start, t.previousStop⟩ directives) t := rfl
    dsimp only
    rw [bind_ok hdirectives]
    refine bind_meets (hothers _ t ht) fun others u hu => ?_
    exact ⟨_, _, _, _, rfl, hu⟩
  refine bind_meets hparts fun parts u hu => ?_
  obtain ⟨directives, statements, directivesSpan, statementsSpan, rfl, hdone⟩ := hu
  exact ⟨directives, statements, ⟨_, _, _, rfl⟩, hdone⟩

end Parser

/-- No mark of the encoding stands before the text, and no line that names an interpreter. -/
def StartsPlainly (text : List Char) : Prop := text.head? ≠ some '\ufeff' ∧ text.head? ≠ some '#'

section

variable {dialect : Dialect} {source : String} {s : State}

theorem hashbang?_of_plain {text : List Char} (h : StartsPlainly text) : hashbang? text = none := by
  unfold hashbang?
  split
  · exact absurd rfl h.2
  · rfl

/-- **What reading a plain text comes to.**  Without complaints on the way, only what the script exports
can still be wrong with it. -/
theorem parse_meets {done : Tree → State → Prop} {lost : Prop} (hplain : StartsPlainly source.toList)
    (h : (Parser.program (Parser.goal (nestingBound source.toList.length)) none
      (State.start dialect source.toList 0)).Meets (fun t s => s.Clean ∧ done t s) lost) :
    (∃ program s, done program s ∧ parse dialect source =
        { program, comments := s.log.toList, panicked := false
          diagnostics := if dialect.typescript then [] else exportComplaints program }) ∨
      (parse dialect source).panicked = true ∧ lost := by
  have hbang := hashbang?_of_plain hplain
  -- rules out the alternative for the mark
  have hmark : ∀ r, source.toList = '\ufeff' :: r → False := fun r hr =>
    hplain.1 (congrArg List.head? hr)
  cases hstep : Parser.program (Parser.goal (nestingBound source.toList.length)) none
      (State.start dialect source.toList 0) with
  | ok program s =>
    rw [hstep] at h
    obtain ⟨hs, hdone⟩ := h
    refine .inl ⟨program, s, hdone, ?_⟩
    unfold parse
    simp [hbang, hstep, hs.lexical, hs.complaints, hs.shortDefaults]
  | fatal d s =>
    rw [hstep] at h
    refine .inr ⟨?_, h⟩
    unfold parse
    simp [hbang, hstep]

end

end PackageRefs.Script
