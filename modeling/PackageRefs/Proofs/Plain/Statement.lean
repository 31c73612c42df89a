/-
# The tree of a plain statement

What `Proofs/Plain/Expression` says of expressions, for lines: `Line.lexes` for the tokens, `Shows` for the tree
and `reads_line` for reading it.

**A line that lacks something.**  Where an arrow function lacks its expression, the token that comes instead
starts none, and the whole reading is given up.  So `reads_line` says what comes of a plain line in both cases.
-/
import PackageRefs.Proofs.Plain.Expression

namespace PackageRefs.Script.Parser

open PackageRefs.Plain PackageRefs.Text

variable {s t : State} {grammar : Grammar} {w : String} {start : Nat}

/-! ## 1. Single steps -/

theorem binding_eq (h : s.token.lexeme = .word w false) (hw : Bare w) :
    binding s = .ok (.node (.binding w) ⟨s.token.start, s.token.stop⟩ []) (next s) := by
  have hawait : (w == "await") = false := by simpa using hw.ne (k := "await") (by simp [operandWords])
  have hyield : (w == "yield") = false := by simpa using hw.ne (k := "yield") (by simp [operandWords])
  simp [binding, word?_apply, h, hw.not_reserved, checkName, hawait, hyield]

theorem pattern_of_word (h : s.token.lexeme = .word w false) (hw : Bare w) :
    pattern grammar s = .ok (.node (.binding w) ⟨s.token.start, s.token.stop⟩ []) (next s) := by
  simp [pattern, h, binding_eq h hw]

/-- The surroundings of the expression of a statement. -/
def expressionContext (c : Context) : Context := { c with allowIn := true, isDecorator := false }

/-- An expression as a statement, without commas. -/
theorem expressionStatement_meets {done : Tree → State → Prop} {lost : Prop} (fuel : Nat)
    (h : (goal fuel (.assignment true) (within (expressionContext s.context) s)).Meets
      (fun e t => t.token.lexeme = .mark ";" ∧
        done (.node .expressionStatement ⟨s.token.start, t.token.stop⟩ [e]) (next (within s.context t))) lost) :
    (expressionStatement (goal (fuel + 1)) s).Meets done lost := by
  have hexpression : (withContext ({ · with allowIn := true }) (goal (fuel + 1) .expression) s).Meets
      (fun e t => t.token.lexeme = .mark ";" ∧
        done (.node .expressionStatement ⟨s.token.start, t.token.stop⟩ [e]) (next t)) lost := by
    refine withContext_meets ?_
    simp only [goal, expression]
    rw [bind_ok (here_apply _)]
    refine @bind_meets _ _ _ (fun e t => t.token.lexeme = .mark ";" ∧
      done (.node .expressionStatement ⟨s.token.start, t.token.stop⟩ [e]) (next (within s.context t))) _ _ _ _
      (withContext_meets h) ?_
    rintro e t ⟨hsemicolon, hdone⟩
    have hcomma : atMark "," t = .ok false t := by simp [hsemicolon]
    rw [bind_ok hcomma]
    exact ⟨hsemicolon, hdone⟩
  unfold expressionStatement
  rw [bind_ok (here_apply s)]
  refine bind_meets hexpression ?_
  rintro e t ⟨hsemicolon, hdone⟩
  have hcolon : eat ":" t = .ok false t := eat_of_ne (by simp [hsemicolon])
  split <;> simpa [hcolon, semicolon_eq hsemicolon] using hdone

/-- The words that the rules for statements and declarations ask for. -/
def statementWords : List String :=
  ["if", "do", "while", "for", "continue", "break", "with", "switch", "throw", "try", "debugger", "class", "export",
    "return", "var", "const", "let", "using", "await", "import", "function", "async", "enum", "interface", "type",
    "module", "namespace", "abstract", "accessor", "declare", "private", "protected", "public", "readonly",
    "global", "static"]

/-- None of these rules asks for the first word of an expression. -/
theorem ne_of_mem_statementWords {k : String} (hw : Bare w ∨ w = "void") (hk : k ∈ statementWords) : w ≠ k := by
  have hall : ∀ k ∈ statementWords, ¬Bare k ∧ k ≠ "void" := by decide +kernel
  rintro rfl
  exact hw.elim (hall w hk).1 (hall w hk).2

theorem declarationAhead_of_bare (fuel : Nat) (h : s.token.lexeme = .word w false)
    (hw : Bare w ∨ w = "void") : ∃ t, declarationAhead (fuel + 1) s = .ok false t := by
  have hne : ∀ k ∈ statementWords, w ≠ k := fun k hk => ne_of_mem_statementWords hw hk
  simp only [statementWords, List.forall_mem_cons, List.not_mem_nil, false_imp_iff, implies_true, and_true] at hne
  refine ⟨next s, ?_⟩
  simp [declarationAhead, word?_apply, h, bump_of_word h, hne, leadingWords]

theorem startsDeclaration_of_word (h : s.token.lexeme = .word w false) (hw : Bare w ∨ w = "void") :
    startsDeclaration s = .ok false s := by
  obtain ⟨t, hahead⟩ := declarationAhead_of_bare 15 h hw
  simp [startsDeclaration, lookahead, hahead]

theorem startsDeclaration_of_mark {m : String} (h : s.token.lexeme = .mark m) :
    startsDeclaration s = .ok false s := by
  simp [startsDeclaration, lookahead, declarationAhead, word?_apply, h]

theorem statementIn_of_word (h : s.token.lexeme = .word w false) (hw : Bare w ∨ w = "void") :
    statementIn grammar false s = expressionStatement grammar s := by
  have hfunction : atFunction s = .ok false s := by
    have hne : w ≠ "function" ∧ w ≠ "async" :=
      ⟨ne_of_mem_statementWords hw (by simp [statementWords]), ne_of_mem_statementWords hw (by simp [statementWords])⟩
    simp [atFunction, atWord_apply, h, hne]
  unfold statementIn
  rw [bind_ok (here_apply s)]
  simp only [bind_apply, lexeme_apply, h]
  split
  -- the last case is that of a word without a meaning of its own
  case h_21 => simp [hfunction, startsDeclaration_of_word h hw]
  all_goals exact absurd rfl (ne_of_mem_statementWords hw (by simp [statementWords]))

theorem statementIn_of_mark {m : String} (h : s.token.lexeme = .mark m)
    (hm : m = "(" ∨ m = ")" ∨ m = "*") : statementIn grammar false s = expressionStatement grammar s := by
  have hdeclaration := startsDeclaration_of_mark h
  unfold statementIn
  rw [bind_ok (here_apply s)]
  rcases hm with rfl | rfl | rfl <;> simp [h, hdeclaration]

/-- A semicolon by itself is a statement. -/
theorem statementIn_of_semicolon (h : s.token.lexeme = .mark ";") :
    statementIn grammar false s = .ok (.node .emptyStatement ⟨s.token.start, s.token.stop⟩ []) (next s) := by
  unfold statementIn
  simp [h, bump_of_mark h]

/-! ## 2. A constant -/

/-- The node of a variable with its value. -/
def variableNode (w : String) (span nameSpan : Span) (value : Tree) : Tree :=
  .node (.declarator false) span [.node (.binding w) nameSpan [], value]

/-- The node of a constant with its value. -/
def constantNode (w : String) (span variableSpan nameSpan : Span) (value : Tree) : Tree :=
  .node (.variableList .const false) span [variableNode w variableSpan nameSpan value]

section

variable {done : Tree → State → Prop} {lost : Prop}

/-- A name, the mark for its value, and the value. -/
theorem declarator_meets (hname : s.token.lexeme = .word w false) (hw : Bare w)
    (hequals : (next s).token.lexeme = .mark "=") {inner : Grammar} (hpattern : grammar .pattern = pattern inner)
    (h : (grammar (.assignment true) (next (next s))).Meets
      (fun e t => ∀ span nameSpan, done (variableNode w span nameSpan e) t) lost) :
    (declarator grammar s).Meets done lost := by
  have hpattern : grammar .pattern s =
      .ok (.node (.binding w) ⟨s.token.start, s.token.stop⟩ []) (next s) := by
    rw [hpattern, pattern_of_word hname hw]
  have heat : ∀ m, m ≠ "=" → eat m (next s) = .ok false (next s) := fun m hm =>
    eat_of_ne (by simp [hequals, hm.symm])
  have hannotation : typeAnnotation grammar (next s) = .ok .absent (next s) := by
    simp [ typeAnnotation, hequals]
  have habsent : Tree.absent.isAbsent = true := rfl
  cases hstep : grammar (.assignment true) (next (next s)) with
  | fatal d t =>
    rw [hstep] at h
    simpa [declarator, hpattern, heat, hannotation, withType, Tree.label, habsent, eat_of_mark hequals,
      hstep] using h
  | ok e t =>
    rw [hstep] at h
    have hdone : ∀ span nameSpan, done (variableNode w span nameSpan e) t := h
    simpa [declarator, hpattern, heat, hannotation, withType, Tree.label, habsent, eat_of_mark hequals,
      variableNode, hstep] using hdone _ _

theorem checkValue_of_value {kind : VariableKind} {span nameSpan : Span} {e : Tree} (h : e.isAbsent = false) :
    checkValue kind false (variableNode w span nameSpan e) s = .ok () s := by
  simp [checkValue, variableNode, Tree.parts, h]

/-- A constant with its value. -/
theorem statementIn_of_const (hconst : s.token.lexeme = .word "const" false)
    (hname : (next s).token.lexeme = .word w false) (hw : Bare w)
    (hequals : (next (next s)).token.lexeme = .mark "=") {inner : Grammar} (hpattern : grammar .pattern = pattern inner)
    (h : (grammar (.assignment true) (next (next (next s)))).Meets (fun e t => t.token.lexeme = .mark ";" ∧
      e.isAbsent = false ∧ ∀ variableSpan nameSpan,
        done (constantNode w ⟨s.token.start, t.token.stop⟩ variableSpan nameSpan e) (next t)) lost) :
    (statementIn grammar false s).Meets done lost := by
  have henum : atConstEnum s = .ok false s := by
    have hne : w ≠ "enum" := ne_of_mem_statementWords (.inl hw) (by simp [statementWords])
    simp [atConstEnum, atWord_apply, isWord, hname, hne]
  have hstatement : statementIn grammar false s = variablesIn grammar false .const s := by
    unfold statementIn
    simp [hconst, henum]
  have hlist : (checkedDeclarators grammar .const false (next s)).Meets (fun ds t =>
      t.token.lexeme = .mark ";" ∧ ∃ d, ds = [d] ∧
        done (.node (.variableList .const false) ⟨s.token.start, t.token.stop⟩ [d]) (next t)) lost := by
    refine @bind_meets _ _ _ (fun d t => t.token.lexeme = .mark ";" ∧
        done (.node (.variableList .const false) ⟨s.token.start, t.token.stop⟩ [d]) (next t)) _ _ _ _
      (bind_meets (declarator_meets hname hw hequals hpattern (h.imp ?_ id) : Step.Meets (fun d t =>
        t.token.lexeme = .mark ";" ∧ checkValue .const false d t = .ok () t ∧
          done (.node (.variableList .const false) ⟨s.token.start, t.token.stop⟩ [d]) (next t)) lost _) ?_) ?_
    · rintro e t ⟨hsemicolon, hvalue, hdone⟩ span nameSpan
      exact ⟨hsemicolon, checkValue_of_value hvalue, hdone span nameSpan⟩
    · rintro d t ⟨hsemicolon, hcheck, hdone⟩
      rw [bind_ok hcheck]
      exact ⟨hsemicolon, hdone⟩
    · rintro d t ⟨hsemicolon, hdone⟩
      have hcomma : eat "," t = .ok false t := eat_of_ne (by simp [hsemicolon])
      simpa [many, repeatWith, hcomma] using ⟨hsemicolon, hdone⟩
  have hword : bumpVariableWord .const s = .ok () (next s) := by
    have hkind : (VariableKind.const == .awaitUsing) = false := by decide
    simp [bumpVariableWord, bump_of_word hconst, hkind]
  rw [hstatement]
  unfold variablesIn variableStatement
  rw [bind_ok (here_apply s)]
  refine bind_meets (?_ : Step.Meets done lost _) fun t u h => by simpa using h
  rw [bind_ok hword]
  refine bind_meets hlist ?_
  rintro _ t ⟨hsemicolon, d, rfl, hdone⟩
  rw [bind_ok (semicolon_eq hsemicolon)]
  exact hdone

end

end PackageRefs.Script.Parser

namespace PackageRefs.Plain

open PackageRefs.Script PackageRefs.Text
open Script.Parser (Ends constantNode)

/-! ## 3. The tree of a line -/

namespace Line

/-- The tokens of a statement. -/
def lexemes : Line → List Lexeme
  | imported request => [.word "import" false, Expr.literal request, .mark ";"]
  | bound name value => .word "const" false :: .word name false :: .mark "=" :: (value.lexemes ++ [.mark ";"])
  | run e => e.lexemes ++ [.mark ";"]
  | note _ | block _ | shelved .. => []

/-- How deep the rules of the grammar nest. -/
def depth : Line → Nat
  | bound _ value => value.depth + 2
  | run e => e.depth + 2
  | _ => 2

end Line

/-- The node of an import for its effect. -/
def importNode (request : String) (span sourceSpan : Span) : Tree :=
  .node (.importDeclaration false none) span [.absent, stringNode request sourceSpan, .absent]

/-- The tree is that of the statement. -/
inductive Shows (free : Nat → Prop) : Line → Tree → Prop
  | imported (request : String) (span sourceSpan : Span) :
      Shows free (.imported request) (importNode request span sourceSpan)
  | bound (name : String) (span variableSpan nameSpan : Span) {value : Expr} {t : Tree}
      (h : Depicts free value t) : Shows free (.bound name value) (constantNode name span variableSpan nameSpan t)
  | run (span : Span) {e : Expr} {t : Tree} (h : Depicts free e t) :
      Shows free (.run e) (.node .expressionStatement span [t])

theorem Shows.mono {free free' : Nat → Prop} {l : Line} {t : Tree} (h : Shows free l t)
    (hfree : ∀ p, free p → free' p) : Shows free' l t := by
  cases h with
  | imported request span sourceSpan => exact .imported request span sourceSpan
  | bound name span variableSpan nameSpan h => exact .bound name span variableSpan nameSpan (h.mono hfree)
  | run span h => exact .run span (h.mono hfree)

theorem Depicts.not_absent {free : Nat → Prop} {e : Expr} {t : Tree} (h : Depicts free e t) :
    t.isAbsent = false := by
  cases h <;> rfl

/-- A statement has been read: as many tokens as it has, and nothing is missing. -/
structure ReadLine (l : Line) (s : State) (t : Tree) (u : State) : Prop where
  whole : l.isHollow = false
  state : u = skip l.lexemes.length s
  start : t.span.start = s.token.start
  tree : Shows (fun p => s.token.start < p ∧ p < (skip (l.lexemes.length - 1) s).token.stop) l t

section

variable {s : State} {l : Line} {rest : List Char}

theorem isWord_import : isWord "import" = true ∧ isWord "const" = true := by decide

/-- **The tokens of a statement.** -/
theorem Line.lexes (hplain : l.isPlain = true) (hcode : l.isComment = false) (rest : List Char) :
    Lexes (l.text ++ rest) l.lexemes rest := by
  have hspace : ∀ rest, EndsWord (' ' :: rest) := fun rest d hd => by
    obtain rfl : ' ' = d := by simpa using hd
    decide
  cases l with
  | imported request =>
    have htext : (imported request).text ++ rest =
        "import".toList ++ ' ' :: (Expr.inQuotes request.toList ++ ';' :: rest) := by
      have hopened : importText = "import".toList ++ [' '] := rfl
      simp only [text, hopened, List.append_assoc, List.cons_append, List.nil_append]
    rw [htext]
    exact .cons (next_word isWord_import.1 (hspace _)) (.cons (next_space (next_request hplain _))
      (.cons (next_semicolon rest) (.nil rest)))
  | bound name value =>
    have hboth : isName name = true ∧ (value.isCode || value.isLiteral) = true := by
      simpa only [isPlain, Bool.and_eq_true] using hplain
    have htext : (bound name value).text ++ rest =
        "const".toList ++ ' ' :: (name.toList ++ ' ' :: '=' :: ' ' :: (value.text ++ ';' :: rest)) := by
      have hopened : constText = "const".toList ++ [' '] := rfl
      have hequals : equalsText = [' ', '=', ' '] := rfl
      simp only [text, hopened, hequals, List.append_assoc, List.cons_append, List.nil_append]
    rw [htext]
    refine .cons (next_word isWord_import.2 (hspace _)) (.cons (next_space (next_word
      (isWord_of_isName hboth.1) (hspace _))) (.cons (next_space (next_equals _)) ?_))
    exact (Expr.lexes hboth.2 (.inr rfl) rest).space (by simp)
  | run e =>
    have hcode : e.isCode = true := hplain
    have htext : (run e).text ++ rest = e.text ++ ';' :: rest := by simp [text]
    rw [htext]
    exact Expr.lexes (by simp [hcode]) (.inr rfl) rest
  | note _ | block _ | shelved _ _ _ => cases hcode

theorem Line.lexemes_ne_nil (hcode : l.isComment = false) : l.lexemes ≠ [] := by
  cases l <;> simp [lexemes] <;> cases hcode

theorem Sees.ready_of_ne {lexemes : List Lexeme} (h : Sees lexemes s) (hne : lexemes ≠ []) : Ready s := by
  cases lexemes with
  | nil => exact absurd rfl hne
  | cons => exact h.ready

/-- **Reading a statement** comes to its tree, unless an arrow function in it lacks its expression. -/
theorem reads_line {fuel : Nat} (hplain : l.isPlain = true) (hcode : l.isComment = false)
    (hfuel : l.depth ≤ fuel) (hs : Sees l.lexemes s) :
    (Parser.goal (fuel + 1) .statement s).Meets (ReadLine l s) (l.isHollow = true) := by
  have hready := hs.ready_of_ne (Line.lexemes_ne_nil hcode)
  rw [Parser.goal_statement fuel hready.toClean]
  cases l with
  | imported request =>
    have hword : s.token.lexeme = .word "import" false := hs.1
    have hstring : (Parser.next s).token.lexeme = .string request false request := hs.next.1
    rw [Parser.statementIn_of_import false hword (by simp [Parser.isMark, hstring])
      (by simp [Parser.isMark, hstring]), Parser.importDeclaration_of_string _ hstring hs.next.next.1]
    exact ⟨rfl, rfl, rfl, .imported request _ _⟩
  | bound name value =>
    have hboth : isName name = true ∧ (value.isCode || value.isLiteral) = true := by
      simpa only [Line.isPlain, Bool.and_eq_true] using hplain
    have hdepth : value.depth + 2 ≤ fuel := hfuel
    obtain ⟨fuel, rfl⟩ := Nat.exists_eq_add_of_le' (Nat.le_of_add_left_le hdepth)
    have hvalue : Sees (value.lexemes ++ [.mark ";"]) (skip 3 s) := hs.next.next.next
    refine Parser.statementIn_of_const hs.1 hs.next.1 (bare_of_isName hboth.1) hs.next.next.1 rfl ?_
    refine (reads hboth.2 (.inr rfl) (Nat.le_of_add_right_le hdepth) hvalue).imp ?_ id
    rintro t u ⟨hwhole, rfl, hstart, htree⟩
    obtain ⟨hsemicolon, hlt, -⟩ := hvalue.past value.lexemes_ne_nil
    have hbefore := lt_start_skip hs (by simp)
    have hstop := hsemicolon.lt_stop
    have hlength : (Line.bound name value).lexemes.length = 3 + value.lexemes.length + 1 := by
      simp [Line.lexemes]
      omega
    have hlast : skip (3 + value.lexemes.length) s = skip value.lexemes.length (skip 3 s) := skip_add _ _ _
    refine ⟨hsemicolon.1, htree.not_absent, fun variableSpan nameSpan => ⟨hwhole, ?_, rfl, ?_⟩⟩
    · rw [hlength, skip_succ (3 + _), hlast]
    · refine .bound name _ _ _ (htree.mono fun p hp => ⟨?_, ?_⟩)
      · omega
      · rw [hlength, Nat.add_sub_cancel, hlast]
        omega
  | run e =>
    have hdepth : e.depth + 2 ≤ fuel := hfuel
    obtain ⟨fuel, rfl⟩ := Nat.exists_eq_add_of_le' (Nat.le_of_add_left_le hdepth)
    have hcode : e.isCode = true := hplain
    have hsees : Sees (e.lexemes ++ [.mark ";"]) s := hs
    have hexpression : Parser.statementIn (Parser.goal (fuel + 2)) false s =
        Parser.expressionStatement (Parser.goal (fuel + 2)) s := by
      cases e with
      | name n => exact Parser.statementIn_of_word hsees.1 (.inl (bare_of_isName hcode))
      | required request => exact Parser.statementIn_of_word hsees.1 (.inl bare_require)
      | call callee argument =>
        have hcallee : isName callee = true := by
          rw [Expr.isCode, Bool.and_eq_true] at hcode
          exact hcode.1
        exact Parser.statementIn_of_word hsees.1 (.inl (bare_of_isName hcallee))
      | nothing => exact Parser.statementIn_of_word hsees.1 (.inr rfl)
      | arrow body => exact Parser.statementIn_of_mark hsees.1 (.inl rfl)
      | hollow => exact Parser.statementIn_of_mark hsees.1 (.inl rfl)
      | quoted t | template t => cases hcode
    rw [hexpression]
    refine Parser.expressionStatement_meets (fuel + 1) ?_
    have hfuel : e.depth ≤ fuel + 1 := by omega
    refine (reads (by simp [hcode]) (.inr rfl) hfuel (sees_within hsees)).imp ?_ id
    intro t u hread
    obtain ⟨hwhole, hstate, hstart, htree⟩ := hread.of_within
    obtain ⟨hsemicolon, hlt, -⟩ := hsees.past e.lexemes_ne_nil
    have hstop := hsemicolon.lt_stop
    have htoken : u.token = (within s.context u).token := rfl
    have hlength : (Line.run e).lexemes.length = e.lexemes.length + 1 := by simp [Line.lexemes]
    rw [hstate] at htree htoken ⊢
    rw [htoken]
    refine ⟨hsemicolon.1, hwhole, by rw [hlength, skip_succ], rfl, .run _ (htree.mono fun p hp => ⟨hp.1, ?_⟩)⟩
    rw [hlength, Nat.add_sub_cancel]
    omega
  | note _ | block _ | shelved _ _ _ => cases hcode

end

end PackageRefs.Plain
