/-
# Reading without operators

The rules of the grammar look for operators, accesses and annotations behind every operand.  In a plain script
none of them comes, so what a rule reads is what its operand is: a name, a literal, a call of a name with one
argument, `void` and a number, or an arrow function without parameters.

Each lemma about a rule says what the state in hand has to be like, and what the rule comes to from there
(`Step.Meets`).  What comes next is said by `Ends`, a closing parenthesis or a semicolon: it ends all the rules
between an operand and its statement at once (`assignment_of_operators`).
-/
import PackageRefs.Proofs.Plain.Token

namespace PackageRefs.Plain

open PackageRefs.Script PackageRefs.Text

/-! ## 1. Words -/

/-- A word that is a name here, whatever stands around it. -/
def Bare (w : String) : Prop := isWord w = true ∧ (keywords.contains w = true → w = "require")

instance (w : String) : Decidable (Bare w) := inferInstanceAs (Decidable (_ ∧ (_ → _)))

/-- The words that the rules for operands ask for. -/
def operandWords : List String :=
  ["yield", "async", "await", "void", "typeof", "delete", "null", "true", "false", "this", "class", "function",
    "import", "super", "new"]

/-- No rule asks for a word that is a name. -/
theorem Bare.ne {w k : String} (h : Bare w) (hk : k ∈ operandWords) : w ≠ k := by
  have hall : ∀ k ∈ operandWords, ¬Bare k := by decide +kernel
  rintro rfl
  exact hall w hk h

theorem bare_require : Bare "require" := by decide

theorem bare_of_isName {w : String} (h : isName w = true) : Bare w := by
  simp only [isName, Bool.and_eq_true, Bool.not_eq_true'] at h
  exact ⟨h.1, fun hk => by rw [h.2] at hk; cases hk⟩

theorem Bare.not_reserved {w : String} (h : Bare w) : isReserved w = false := by
  cases hw : isReserved w with
  | false => rfl
  | true =>
    have hmem : w ∈ reservedWords := by simpa [isReserved] using hw
    have hall : ∀ k ∈ reservedWords, ¬Bare k := by decide +kernel
    exact absurd h (hall w hmem)

end PackageRefs.Plain

namespace PackageRefs.Script.Parser

open PackageRefs.Plain PackageRefs.Text

variable {α β : Type} {s t : State} {grammar : Grammar}

/-! ## 2. Single steps -/

@[simp] theorem bind_apply (p : Parser α) (f : α → Parser β) (s : State) :
    (p >>= f) s = match p s with | .ok a t => f a t | .fatal d t => .fatal d t := rfl

@[simp] theorem pure_apply (a : α) (s : State) : (pure a : Parser α) s = .ok a s := rfl

@[simp] theorem result_apply (a : α) (s : State) : result a s = .ok a s := rfl

@[simp] theorem ite_apply_state (c : Prop) [Decidable c] (p q : Parser α) (s : State) :
    (if c then p else q) s = if c then p s else q s := by split <;> rfl

@[simp] theorem here_apply (s : State) : here s = .ok s.token.start s := rfl

@[simp] theorem read_apply (f : State → α) (s : State) : read f s = .ok (f s) s := rfl

@[simp] theorem lexeme_apply (s : State) : lexeme s = .ok s.token.lexeme s := rfl

@[simp] theorem token_apply (s : State) : token s = .ok s.token s := rfl

@[simp] theorem atMark_apply (m : String) (s : State) : atMark m s = .ok (s.token.lexeme == .mark m) s := rfl

@[simp] theorem atEnd_apply (s : State) : atEnd s = .ok (s.token.lexeme == .endOfText) s := rfl

@[simp] theorem onNewLine_apply (s : State) : onNewLine s = .ok s.token.onNewLine s := rfl

@[simp] theorem isTyped_apply (s : State) : isTyped s = .ok s.dialect.typescript s := rfl

@[simp] theorem dialect_apply (s : State) : dialect s = .ok s.dialect s := rfl

@[simp] theorem context_apply (s : State) : context s = .ok s.context s := rfl

@[simp] theorem fuel_apply (s : State) : fuel s = .ok (s.rest.length + 2) s := rfl

@[simp] theorem nextIs_apply (test : Token → Bool) (s : State) :
    nextIs test s = .ok (test (next s).token) s := rfl

@[simp] theorem complainIf_false (d : Diagnostic) (s : State) : complainIf false d s = .ok () s := rfl

@[simp] theorem bumpName_apply (s : State) : bumpName s = .ok () (next s) := rfl

@[simp] theorem node_apply (start : Nat) (label : Label) (parts : List Tree) (s : State) :
    node start label parts s = .ok (.node label ⟨start, s.previousStop⟩ parts) s := rfl

@[simp] theorem previousStop_next (s : State) : (next s).previousStop = s.token.stop := rfl

theorem atWord_apply (w : String) (s : State) : atWord w s =
    .ok (match s.token.lexeme with | .word v _ => v == w | _ => false) s := rfl

theorem word?_apply (s : State) : word? s =
    .ok (match s.token.lexeme with | .word v _ => some v | _ => none) s := rfl

theorem bump_of_word {w : String} (h : s.token.lexeme = .word w false) : bump s = .ok () (next s) :=
  bump_eq (by simp [isDisguisedKeyword, h])

theorem bump_of_mark {m : String} (h : s.token.lexeme = .mark m) : bump s = .ok () (next s) :=
  bump_eq (by simp [isDisguisedKeyword, h])

theorem eat_of_mark {m : String} (h : s.token.lexeme = .mark m) : eat m s = .ok true (next s) := by
  simp [eat, h, bump_of_mark h]

theorem eat_of_ne {m : String} (h : s.token.lexeme ≠ .mark m) : eat m s = .ok false s := by
  simp [eat, h]

theorem expect_of_mark {m : String} (h : s.token.lexeme = .mark m) : expect m s = .ok () (next s) := by
  simp [expect, h, bump_of_mark h]

/-! ## 3. Operands -/

variable {w : String} {start : Nat}

theorem identifier_eq (h : s.token.lexeme = .word w false) (hw : Bare w) :
    identifier s = .ok (.node (.identifier w) ⟨s.token.start, s.token.stop⟩ []) (next s) := by
  have hawait : (w == "await") = false := by simpa using hw.ne (k := "await") (by simp [operandWords])
  have hyield : (w == "yield") = false := by simpa using hw.ne (k := "yield") (by simp [operandWords])
  simp [identifier, word?_apply, h, hw.not_reserved, checkName, hawait, hyield]

/-- The mark closes an argument or a statement. -/
def Ends (s : State) : Prop := s.token.lexeme = .mark ")" ∨ s.token.lexeme = .mark ";"

/-- The token starts an operand that has no operator before it, or no operand at all. -/
def Leads : Lexeme → Prop
  | .word w escaped => Bare w ∧ escaped = false
  | .mark m => m = ")" ∨ m = ";" ∨ m = "*"
  | .string .. | .quasi .. | .number _ => True
  | _ => False

theorem atWord_of_leads {k : String} (h : Leads s.token.lexeme) (hk : k ∈ operandWords) :
    atWord k s = .ok false s := by
  rw [atWord_apply]
  cases hlexeme : s.token.lexeme with
  | word w escaped =>
    rw [hlexeme] at h
    simpa using h.1.ne hk
  | _ => rfl

theorem atWord_of_ends {k : String} (h : Ends s) : atWord k s = .ok false s := by
  rw [atWord_apply]
  rcases h with h | h <;> rw [h]

theorem atMark_of_leads {m : String} (h : Leads s.token.lexeme) (hm : m ≠ ")" ∧ m ≠ ";" ∧ m ≠ "*") :
    atMark m s = .ok false s := by
  rw [atMark_apply]
  cases hlexeme : s.token.lexeme with
  | mark m' =>
    rw [hlexeme] at h
    rcases h with rfl | rfl | rfl <;> simp [hm.1.symm, hm.2.1.symm, hm.2.2.symm]
  | _ => rfl

theorem arrowWithList_of_leads {rt : Bool} (h : Leads s.token.lexeme) :
    arrowWithList grammar rt s = .ok none s := by
  have hasync := @atWord_of_leads s "async" h (by simp [operandWords])
  simp [arrowWithList, arrowVerdict, bind_apply, hasync, atMark_of_leads h (m := "(") (by decide),
    atMark_of_leads h (m := "<") (by decide), -atMark_apply]

theorem asyncArrowWithName_of_leads {rt : Bool} (h : Leads s.token.lexeme) :
    asyncArrowWithName grammar rt s = .ok none s := by
  simp [asyncArrowWithName, lookahead, @atWord_of_leads s "async" h (by simp [operandWords])]

theorem joinRight_of_ends (h : Ends s) : joinRight s = .ok () s := by
  have hne : s.token.lexeme ≠ .mark ">" := by rcases h with h | h <;> simp [h]
  simp [joinRight, hne]

theorem infixMark_of_ends (h : Ends s) : infixMark s = .ok none s := by
  have hops : BinaryOp.ofText? ")" = none ∧ BinaryOp.ofText? ";" = none := by decide
  have hjoin := joinRight_of_ends h
  rcases h with h | h <;> simp [infixMark, hjoin, h, hops, LogicalOp.ofText?]

theorem operatorsAfter_of_ends {level : Precedence} {e : Tree} (fuel : Nat) (h : Ends s) :
    operatorsAfter grammar start level fuel e s = .ok e s := by
  cases fuel with
  | zero => rfl
  | succ fuel => simp [operatorsAfter, infixMark_of_ends h]

theorem stepMark_of_ends (h : Ends s) : stepMark s = .ok none s := by
  rcases h with h | h <;> simp [stepMark, h]

theorem stepMark_of_leads (h : Leads s.token.lexeme) : stepMark s = .ok none s := by
  simp [stepMark, atMark_of_leads h (m := "++") (by decide), atMark_of_leads h (m := "--") (by decide),
    -atMark_apply]

theorem unaryMark_of_leads (h : Leads s.token.lexeme) : unaryMark s = .ok none s := by
  cases hlexeme : s.token.lexeme with
  | word w escaped =>
    rw [hlexeme] at h
    have hnone : UnaryOp.ofText? w = none := by
      unfold UnaryOp.ofText?
      split
      case h_8 => rfl
      case h_5 | h_6 | h_7 => exact absurd rfl (h.1.ne (by simp [operandWords]))
      all_goals exact absurd h.1.1 (by decide)
    simp [unaryMark, hlexeme, hnone]
  | mark m =>
    rw [hlexeme] at h
    rcases h with rfl | rfl | rfl <;> simp [unaryMark, hlexeme, UnaryOp.ofText?]
  | _ => simp [unaryMark, hlexeme]

theorem conditionalRest_of_ends {e : Tree} {rt : Bool} (h : Ends s) :
    conditionalRest grammar start e rt s = .ok e s := by
  rcases h with h | h <;> simp [conditionalRest, eat, h]

theorem stepped_of_callable {done : Tree → State → Prop} {lost : Prop} (hleads : Leads s.token.lexeme)
    (h : (grammar .callable s).Meets (fun e t => Ends t ∧ done e t) lost) :
    (stepped grammar s).Meets done lost := by
  unfold stepped
  simp only [bind_apply, here_apply, stepMark_of_leads hleads, atMark_of_leads hleads (m := "<") (by decide),
    dialect_apply,
    Bool.false_and, Bool.false_eq_true, if_false]
  refine bind_meets h fun e t ⟨hends, hdone⟩ => ?_
  simp only [stepMark_of_ends hends]
  exact hdone

theorem operand_of_callable {done : Tree → State → Prop} {lost : Prop} (hleads : Leads s.token.lexeme)
    (h : (grammar .callable s).Meets (fun e t => Ends t ∧ done e t) lost) :
    (operand grammar s).Meets done lost := by
  have hat : atAwait s = .ok false s := by
    simp [atAwait, @atWord_of_leads s "await" hleads (by simp [operandWords])]
  unfold operand
  simp only [bind_apply, here_apply, unaryMark_of_leads hleads, hat, atMark_of_leads hleads (m := "<") (by decide),
    Bool.false_eq_true, if_false]
  exact stepped_of_callable hleads h

@[simp] theorem meets_ok {done : α → State → Prop} {lost : Prop} {a : α} :
    (Step.ok a s).Meets done lost ↔ done a s := Iff.rfl

@[simp] theorem meets_fatal {done : α → State → Prop} {lost : Prop} {d : Diagnostic} :
    (Step.fatal d s : Step α).Meets done lost ↔ lost := Iff.rfl

theorem operators_of_operand {done : Tree → State → Prop} {lost : Prop} {level : Precedence}
    (hready : s.token.afterHarmless = false) (hname : ∀ name, s.token.lexeme ≠ .privateName name)
    (h : (grammar .operand s).Meets (fun e t => Ends t ∧ done e t) lost) :
    (operators grammar level s).Meets done lost := by
  have hoperators : operators grammar level s = (grammar .operand >>= fun e => fuel >>= fun n =>
      operatorsAfter grammar s.token.start level n e) s := by
    unfold operators
    cases hlexeme : s.token.lexeme with
    | privateName name => exact absurd hlexeme (hname name)
    | _ => simp [hlexeme, hready]
  rw [hoperators]
  exact bind_meets h fun e t ⟨hends, hdone⟩ => by
    simpa [operatorsAfter_of_ends _ hends] using hdone

/-- Without operators, what comes to an operand comes to an expression. -/
theorem assignment_of_operators {done : Tree → State → Prop} {lost : Prop} {rt : Bool} (hs : Ready s)
    (hyield : atYield s = .ok false s) (hlist : arrowWithList grammar rt s = .ok none s)
    (hasync : asyncArrowWithName grammar rt s = .ok none s)
    (h : (grammar (.operators .comma) s).Meets (fun e t => Ends t ∧ done e t) lost) :
    (assignment grammar rt s).Meets done lost := by
  unfold assignment
  simp only [bind_apply, token_apply, hyield, hlist, hasync, here_apply, hs.token, Bool.false_eq_true,
    if_false]
  refine bind_meets h fun e t ⟨hends, hdone⟩ => ?_
  have hrest : ∀ start, conditionalRest grammar start e rt t = .ok e t := fun _ =>
    conditionalRest_of_ends hends
  rcases hends with hmark | hmark <;> split <;> simpa [hmark, AssignOp.ofText?, hrest] using hdone

/-! ## 4. Accesses and calls -/

/-- No access comes here. -/
def Stops (s : State) : Prop := s.token.lexeme = .mark "(" ∨ Ends s

theorem accesses_of_stops {e : Tree} {chain optionalAllowed : Bool} (fuel : Nat) (h : Stops s) :
    accesses grammar start optionalAllowed fuel e chain s = .ok (e, chain) s := by
  cases fuel with
  | zero => rfl
  | succ fuel =>
    rcases h with h | h | h <;>
      simp [accesses, eat, h, atQuasi, expressionTypeArguments]

theorem calls_of_ends {e : Tree} {chain : Bool} (fuel : Nat) (h : Ends s) :
    calls grammar start fuel e chain s = .ok (e, chain) s := by
  cases fuel with
  | zero => rfl
  | succ fuel =>
    have haccesses : accesses grammar start true (fuel + 1) e chain s = .ok (e, chain) s :=
      accesses_of_stops _ (.inr h)
    rcases h with h | h <;> simp [calls, haccesses, h]

theorem primary_of_word (h : s.token.lexeme = .word w false) (hw : Bare w) :
    primary grammar s = .ok (.node (.identifier w) ⟨s.token.start, s.token.stop⟩ []) (next s) := by
  have hne : w ≠ "null" ∧ w ≠ "true" ∧ w ≠ "false" ∧ w ≠ "this" ∧ w ≠ "class" ∧ w ≠ "function" ∧ w ≠ "async" := by
    refine ⟨?_, ?_, ?_, ?_, ?_, ?_, ?_⟩ <;> exact hw.ne (by simp [operandWords])
  have hat : atFunction s = .ok false s := by
    simp [atFunction, atWord_apply, h, hne]
  simp [primary, h, hne, hat, identifier_eq h hw]

theorem primary_of_string {value raw : String} {lone : Bool} (h : s.token.lexeme = .string value lone raw) :
    primary grammar s = .ok (.node (.string value lone) ⟨s.token.start, s.token.stop⟩ []) (next s) := by
  have hbump : bump s = .ok () (next s) := bump_eq (by simp [isDisguisedKeyword, h])
  simp [primary, literal, h, hbump]

theorem primary_of_quasi {text : String} (h : s.token.lexeme = .quasi text (some text) true) :
    primary grammar s = .ok (.node .template ⟨s.token.start, s.token.stop⟩
      [.node (.quasi text (some text)) ⟨s.token.start, s.token.stop⟩ []]) (next s) := by
  have hbump : bump s = .ok () (next s) := bump_eq (by simp [isDisguisedKeyword, h])
  simp [primary, template, quasiNode, h, hbump, templateRest]

theorem callable_of_leads (hleads : Leads s.token.lexeme) : callable grammar s =
    (primary grammar >>= fun e => fuel >>= fun n => calls grammar s.token.start n e false >>= fun
      (e, chain) => if chain then node s.token.start .chain [e] else pure e) s := by
  have hat {k : String} (hk : k ∈ operandWords) : atWord k s = .ok false s := atWord_of_leads hleads hk
  unfold callable
  rw [bind_ok (here_apply s), bind_ok (hat (by simp [operandWords])), bind_ok (hat (by simp [operandWords])),
    bind_ok (hat (by simp [operandWords]))]
  rfl

/-- Something stands between the parentheses of a call. -/
def StartsItem (s : State) : Prop :=
  s.token.lexeme ≠ .mark ")" ∧ s.token.lexeme ≠ .mark "..." ∧ s.token.lexeme ≠ .endOfText

theorem delimited_one {close : String} {item : Parser α} {done : α → State → Prop} {lost : Prop}
    (hopen : s.token.lexeme ≠ .mark close) (hend : s.token.lexeme ≠ .endOfText)
    (h : (item s).Meets (fun a t => t.token.lexeme = .mark close ∧ done a t) lost) :
    (delimited close item s).Meets (fun r t => ∃ a, r = ([a], false) ∧ t.token.lexeme = .mark close ∧ done a t)
      lost := by
  unfold delimited
  simp only [bind_apply, atMark_apply, atEnd_apply, fuel_apply, beq_eq_false_iff_ne.mpr hopen,
    beq_eq_false_iff_ne.mpr hend, Bool.or_self, Bool.false_eq_true, if_false, delimitedWith]
  refine bind_meets h fun a t ⟨hclose, hdone⟩ => ?_
  simpa [hclose] using hdone

/-- The surroundings between the parentheses of a call. -/
def argumentContext (c : Context) : Context := { c with allowIn := true, isDecorator := false }

theorem arguments_meets {done : Tree → State → Prop} {lost : Prop}
    (hopen : s.token.lexeme = .mark "(") (hitem : StartsItem (next s))
    (h : (grammar (.assignment true) (within (argumentContext s.context) (next s))).Meets
      (fun e t => t.token.lexeme = .mark ")" ∧ done e (within s.context t)) lost) :
    (arguments grammar s).Meets
      (fun items t => ∃ e u, items = [e] ∧ t = next u ∧ u.token.lexeme = .mark ")" ∧ done e u) lost := by
  have hcontext : (next s).context = s.context := context_skip 1 s
  unfold arguments
  rw [bind_ok (expect_of_mark hopen)]
  have hlist : (withContext argumentContext
      (delimited ")" do if ← atMark "..." then spread grammar else grammar (.assignment true)) (next s)).Meets
        (fun r t => ∃ e, r = ([e], false) ∧ t.token.lexeme = .mark ")" ∧ done e t) lost :=
    withContext_meets (by
      rw [hcontext]
      refine delimited_one hitem.1 hitem.2.2 ?_
      have hspread : ((within (argumentContext s.context) (next s)).token.lexeme == .mark "...") = false :=
        beq_eq_false_iff_ne.mpr hitem.2.1
      simpa only [bind_apply, atMark_apply, hspread, Bool.false_eq_true, if_false, ite_apply_state] using h)
  refine bind_meets hlist fun r t ⟨e, hr, hclose, hdone⟩ => ?_
  subst hr
  dsimp only
  rw [bind_ok (expect_of_mark hclose)]
  exact ⟨e, t, rfl, rfl, hclose, hdone⟩

/-- The node of a name. -/
def nameNode (w : String) (span : Span) : Tree := .node (.identifier w) span []

/-- The node of a call with one argument. -/
def callNode (w : String) (span calleeSpan : Span) (argument : Tree) : Tree :=
  .node (.call false false) span [nameNode w calleeSpan, .absent, argument]

/-- The call of an expression, and no access or call behind it. -/
theorem calls_of_call {calleeSpan : Span} {done : Tree → State → Prop} {lost : Prop} (fuel : Nat)
    (hopen : s.token.lexeme = .mark "(") (hitem : StartsItem (next s))
    (h : (grammar (.assignment true) (within (argumentContext s.context) (next s))).Meets
      (fun e t => t.token.lexeme = .mark ")" ∧ Ends (next (within s.context t)) ∧
        done (callNode w ⟨start, (within s.context t).token.stop⟩ calleeSpan e)
          (next (within s.context t))) lost) :
    (calls grammar start (fuel + 1) (nameNode w calleeSpan) false s).Meets (fun r t => r.2 = false ∧ done r.1 t) lost := by
  have hcall : (callAfter grammar start (nameNode w calleeSpan) false .absent s).Meets
      (fun e t => Ends t ∧ done e t) lost := by
    refine bind_meets (@arguments_meets _ _ (fun e u => Ends (next u) ∧
      done (callNode w ⟨start, u.token.stop⟩ calleeSpan e) (next u)) _ hopen hitem h) ?_
    rintro _ _ ⟨e, u, rfl, rfl, -, hdone⟩
    exact hdone
  have hnot : (Lexeme.mark "(" == Lexeme.mark "?.") = false := by decide
  have hstops : Stops s := .inl hopen
  simp only [calls, bind_apply, accesses_of_stops _ hstops, atMark_apply, hopen, hnot, beq_self_eq_true,
    Bool.false_eq_true, if_false, if_true]
  exact bind_meets hcall fun e t ⟨hends, hdone⟩ => by
    rw [calls_of_ends _ hends]
    exact ⟨rfl, hdone⟩

/-- A call comes to what its argument comes to. -/
theorem callable_of_call {done : Tree → State → Prop} {lost : Prop} (hword : s.token.lexeme = .word w false)
    (hw : Bare w) (hopen : (next s).token.lexeme = .mark "(") (hitem : StartsItem (next (next s)))
    (h : (grammar (.assignment true) (within (argumentContext s.context) (next (next s)))).Meets
      (fun e t => t.token.lexeme = .mark ")" ∧ Ends (next (within s.context t)) ∧
        done (callNode w ⟨s.token.start, (within s.context t).token.stop⟩ ⟨s.token.start, s.token.stop⟩ e)
          (next (within s.context t))) lost) :
    (callable grammar s).Meets done lost := by
  have hleads : Leads s.token.lexeme := by
    rw [hword]
    exact ⟨hw, rfl⟩
  have hcontext : (next s).context = s.context := context_skip 1 s
  rw [callable_of_leads hleads, bind_ok (primary_of_word hword hw), bind_ok (fuel_apply _)]
  rw [← hcontext] at h
  refine bind_meets (calls_of_call _ hopen hitem h) ?_
  rintro ⟨e, chain⟩ t ⟨rfl, hdone⟩
  exact hdone

/-- A leaf is an operand by itself. -/
theorem callable_of_primary {e : Tree} (hleads : Leads s.token.lexeme)
    (h : primary grammar s = .ok e (next s)) (hends : Ends (next s)) :
    callable grammar s = .ok e (next s) := by
  rw [callable_of_leads hleads, bind_ok h, bind_ok (fuel_apply _), bind_ok (calls_of_ends _ hends)]
  rfl

/-! ## 5. Goals -/

/-- A token of the kind is no arrow function's start, and nothing else is special about it. -/
theorem goal_assignment_of_leads {done : Tree → State → Prop} {lost : Prop} {rt : Bool} (fuel : Nat)
    (hs : Ready s) (hleads : Leads s.token.lexeme)
    (h : (goal (fuel + 1) .callable s).Meets (fun e t => Ends t ∧ done e t) lost) :
    (goal (fuel + 4) (.assignment rt) s).Meets done lost := by
  have hat : atYield s = .ok false s := by
    simp [atYield, @atWord_of_leads s "yield" hleads (by simp [operandWords])]
  have hname : ∀ name, s.token.lexeme ≠ .privateName name := fun name heq => by
    rw [heq] at hleads
    exact hleads
  refine assignment_of_operators hs hat (arrowWithList_of_leads hleads)
    (asyncArrowWithName_of_leads hleads) ?_
  refine operators_of_operand hs.notHarmless hname ?_
  refine operand_of_callable hleads (h.imp ?_ id)
  exact fun e t ⟨hends, hdone⟩ => ⟨hends, hends, hends, hdone⟩

/-- A mark that no operand starts with. -/
theorem goal_callable_of_mark {m : String} (fuel : Nat) (hm : m = ")" ∨ m = ";" ∨ m = "*")
    (h : s.token.lexeme = .mark m) : ∃ d t, goal (fuel + 1) .callable s = .fatal d t := by
  have hleads : Leads s.token.lexeme := by
    rw [h]
    exact hm
  have hprimary : ∃ d t, primary (goal fuel) s = .fatal d t := by
    rcases hm with rfl | rfl | rfl <;> simp [primary, h, unexpected]
  obtain ⟨d, t, hprimary⟩ := hprimary
  exact ⟨d, t, by simp only [goal, callable_of_leads hleads, bind_apply, hprimary]⟩

theorem goal_assignment_of_mark {m : String} {done : Tree → State → Prop} {rt : Bool} (fuel : Nat)
    (hs : Ready s) (hm : m = ")" ∨ m = ";" ∨ m = "*") (h : s.token.lexeme = .mark m) :
    (goal (fuel + 4) (.assignment rt) s).Meets done True := by
  have hleads : Leads s.token.lexeme := by
    rw [h]
    exact hm
  refine goal_assignment_of_leads fuel hs hleads ?_
  obtain ⟨d, t, hcallable⟩ := goal_callable_of_mark fuel hm h
  rw [hcallable]
  trivial

/-- `void` and a number behind it. -/
theorem goal_assignment_of_void {x : Number.Binary64} {done : Tree → State → Prop} {lost : Prop} {rt : Bool}
    (fuel : Nat) (hs : Ready s) (hvoid : s.token.lexeme = .word "void" false)
    (hnumber : (next s).token.lexeme = .number x) (hends : Ends (next (next s)))
    (hdone : done (.node (.unary .voidOf) ⟨s.token.start, (next s).token.stop⟩
      [.node (.number x) ⟨(next s).token.start, (next s).token.stop⟩ []]) (next (next s))) :
    (goal (fuel + 5) (.assignment rt) s).Meets done lost := by
  have hat : atYield s = .ok false s := by simp [atYield, atWord_apply, hvoid]
  have hlist : arrowWithList (goal (fuel + 4)) rt s = .ok none s := by
    simp [arrowWithList, arrowVerdict, atWord_apply, hvoid]
  have hasync : asyncArrowWithName (goal (fuel + 4)) rt s = .ok none s := by
    simp [asyncArrowWithName, lookahead, atWord_apply, hvoid]
  refine assignment_of_operators hs hat hlist hasync ?_
  refine operators_of_operand hs.notHarmless (by simp [hvoid]) ?_
  have hleads : Leads (next s).token.lexeme := by
    rw [hnumber]
    trivial
  have hbump : bump (next s) = .ok () (next (next s)) := bump_eq (by simp [isDisguisedKeyword, hnumber])
  have hprimary : primary (goal fuel) (next s) =
      .ok (.node (.number x) ⟨(next s).token.start, (next s).token.stop⟩ []) (next (next s)) := by
    simp [primary, literal, hnumber, hbump]
  have hoperand : (operand (goal (fuel + 1)) (next s)).Meets (fun e t =>
      e = .node (.number x) ⟨(next s).token.start, (next s).token.stop⟩ [] ∧ t = next (next s)) lost := by
    refine operand_of_callable hleads ?_
    have hcallable := callable_of_primary hleads hprimary hends
    simp only [goal, hcallable]
    exact ⟨hends, rfl, rfl⟩
  have hop : unaryMark s = .ok (some .voidOf) s := by simp [unaryMark, hvoid, UnaryOp.ofText?]
  simp only [goal]
  unfold operand
  simp only [bind_apply, here_apply, hop, bump_of_word hvoid]
  refine bind_meets hoperand ?_
  rintro _ _ ⟨rfl, rfl⟩
  have hpower : atMark "**" (next (next s)) = .ok false (next (next s)) := by
    rcases hends with h | h <;> simp [h]
  simp only [hpower, complainIf_false]
  exact ⟨hends, hends, hdone⟩

/-! ## 6. Arrow functions -/

/-- The surroundings of the body of an arrow function. -/
def arrowContext (c : Context) : Context := { c with isAwait := false, isYield := false }

/-- The node of an arrow function without parameters whose body is the expression. -/
def arrowNode (span listSpan bodySpan : Span) (e : Tree) : Tree :=
  .node (.arrow false true false false) span
    [.absent, .node .parameters listSpan [], .absent,
      .node .functionBody bodySpan
        [.node .directives bodySpan [], .node .statements bodySpan [.node .expressionStatement bodySpan [e]]]]

/-- An empty list of parameters and an arrow are in hand, on one line. -/
structure AtArrow (s : State) : Prop where
  opening : s.token.lexeme = .mark "("
  closing : (next s).token.lexeme = .mark ")"
  arrow : (next (next s)).token.lexeme = .mark "=>"
  sameLine : (next (next s)).token.onNewLine = false

theorem arrowVerdict_of_atArrow (h : AtArrow s) : arrowVerdict s = .ok .yes s := by
  simp [arrowVerdict, atWord_apply, h.opening, verdictAfterParenthesis, bump_of_mark h.opening, h.closing,
    bump_of_mark h.closing, h.arrow]

theorem delimited_nothing {close : String} {item : Parser α} (h : s.token.lexeme = .mark close) :
    delimited close item s = .ok ([], false) s := by
  simp [delimited, h]

theorem withContext_eq {f : Context → Context} {p : Parser α} {a : α}
    (h : p (within (f s.context) s) = .ok a (within (f s.context) t)) :
    withContext f p s = .ok a (within s.context t) := by
  unfold within at h
  simp only [withContext, h]
  rfl

theorem withContext_self {f : Context → Context} {p : Parser α} {a : α}
    (h : p (within (f s.context) s) = .ok a (within (f s.context) s)) : withContext f p s = .ok a s :=
  withContext_eq h

theorem parameters_of_nothing (hopening : s.token.lexeme = .mark "(")
    (hclosing : (next s).token.lexeme = .mark ")") : parameters grammar false s =
      .ok (.absent, .node .parameters ⟨s.token.start, (next s).token.stop⟩ []) (next (next s)) := by
  have hthis : thisParameter grammar (next s) = .ok .absent (next s) := by
    simp [thisParameter, atWord_apply, hclosing]
  have hlist : withContext ({ · with allowIn := true }) (delimited ")" (parameter grammar false)) (next s) =
      .ok ([], false) (next s) := withContext_self (delimited_nothing hclosing)
  have hcheck : checkRestLast [] false .restLastInParameters (next s) = .ok () (next s) := by
    simp [checkRestLast]
  simp [parameters, expect_of_mark hopening, hthis, hlist, hcheck, expect_of_mark hclosing]

theorem arrowHead_of_atArrow (h : AtArrow s) : arrowHead grammar s =
    .ok { start := s.token.start, isAsync := false
          parts := [.absent, .node .parameters ⟨s.token.start, (next s).token.stop⟩ [], .absent]
          hasReturnType := false } (next (next (next s))) := by
  obtain ⟨hopening, hclosing, harrow, hline⟩ := h
  have hasync : eatWord "async" s = .ok false s := by simp [eatWord, atWord_apply, hopening]
  have hcontext : within s.context (next (next s)) = next (next s) := by
    rw [← context_skip 2 s]
    rfl
  have hannotation : returnAnnotation grammar (next (next s)) = .ok .absent (next (next s)) := by
    simp [ returnAnnotation, harrow]
  have habsent : Tree.absent.isAbsent = true := rfl
  unfold arrowHead
  rw [bind_ok (here_apply s), bind_ok hasync]
  refine (bind_ok (a := (.absent, .absent, .node .parameters ⟨s.token.start, (next s).token.stop⟩ []))
    (t := next (next s)) ?_).trans ?_
  · -- neither type parameters nor parameters
    rw [← hcontext]
    refine withContext_eq ?_
    generalize { s.context with isAwait := s.context.isAwait || false } = c
    have hgenerics : typeParameters grammar (within c s) = .ok .absent (within c s) := by
      have hlexeme : (within c s).token.lexeme = .mark "(" := hopening
      simp [typeParameters, hlexeme]
    have hparameters := @parameters_of_nothing (within c s) grammar hopening
      (by rw [next_within]; exact hclosing)
    rw [next_within, next_within] at hparameters
    rw [bind_ok hgenerics, bind_ok hparameters]
    rfl
  · simp [habsent, harrow, hannotation, hline, expect_of_mark harrow]

/-- An arrow function comes to what its body comes to. -/
theorem goal_assignment_of_arrow {done : Tree → State → Prop} {lost : Prop} {rt : Bool} (fuel : Nat)
    (hs : Ready s) (h : AtArrow s) (hbody : (next (next (next s))).token.lexeme ≠ .mark "\x7b")
    (hready : (goal fuel (.assignment rt) (within (arrowContext s.context) (next (next (next s))))).Meets
      (fun e t => ∀ listSpan bodySpan, done (arrowNode ⟨s.token.start, t.previousStop⟩ listSpan bodySpan e)
        (within s.context t)) lost) :
    (goal (fuel + 1) (.assignment rt) s).Meets done lost := by
  have hyield : atYield s = .ok false s := by simp [atYield, atWord_apply, h.opening]
  have hcontext : (next (next (next s))).context = s.context := context_skip 3 s
  have hlist : (arrowWithList (goal fuel) rt s).Meets (fun e t => ∃ e', e = some e' ∧ done e' t) lost := by
    unfold arrowWithList
    rw [bind_ok (arrowVerdict_of_atArrow h)]
    dsimp only
    rw [bind_ok (arrowHead_of_atArrow h)]
    have hmeets : (withContext ({ · with isAwait := false, isYield := false }) (goal fuel (.assignment rt))
        (next (next (next s)))).Meets (fun e t => ∀ listSpan bodySpan,
          done (arrowNode ⟨s.token.start, t.previousStop⟩ listSpan bodySpan e) t) lost :=
      withContext_meets (by
        rw [hcontext]
        exact hready)
    have harrow : (arrowBody (goal fuel) false rt (next (next (next s)))).Meets (fun r t =>
        ∃ span e, r = (.node .functionBody span [.node .directives span [],
          .node .statements span [.node .expressionStatement span [e]]], true) ∧
          ∀ listSpan, done (arrowNode ⟨s.token.start, t.previousStop⟩ listSpan span e) t) lost := by
      have hopen : atMark "\x7b" (next (next (next s))) = .ok false (next (next (next s))) := by simp [hbody]
      unfold arrowBody
      rw [bind_ok hopen, if_neg (by simp), bind_ok (here_apply _)]
      exact bind_meets hmeets fun e t he => ⟨_, e, rfl, fun listSpan => he listSpan _⟩
    refine bind_meets (bind_meets harrow fun r t hr => ?_) fun e t ht => ⟨e, rfl, ht⟩
    obtain ⟨span, e, rfl, hdone⟩ := hr
    exact hdone _
  unfold goal assignment
  simp only [bind_apply, token_apply, hyield, hs.token, Bool.false_eq_true, if_false]
  refine bind_meets hlist ?_
  rintro _ t ⟨e, rfl, hdone⟩
  exact hdone

end PackageRefs.Script.Parser
