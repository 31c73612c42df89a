/-
# The tree of a plain expression

* `Expr.lexes`: the text of an expression has the tokens `Expr.lexemes`.
* `Depicts` says which trees are those of an expression.  The places of the nodes are left open, and of the
  places that the printer looks at it is kept that no comment stands there.
* `reads`: reading an expression comes to such a tree, or gives up if an arrow function in it lacks its own.

The grammar's rules call each other through their depth, so the induction on the expression asks for as much
depth as the expression needs (`Expr.depth`) and leaves the surroundings of the reader open.
-/
import PackageRefs.Proofs.Plain.Operand

namespace PackageRefs.Plain

open PackageRefs.Script PackageRefs.Text
open Script.Parser (Ends Leads StartsItem argumentContext arrowContext AtArrow nameNode callNode arrowNode)

/-! ## 1. The tokens of an expression -/

namespace Expr

/-- The token of a string. -/
def literal (t : String) : Lexeme := .string t false t

/-- The tokens of an expression.  None comes from where an arrow function lacks its own. -/
def lexemes : Expr → List Lexeme
  | name n => [.word n false]
  | required request => [.word "require" false, .mark "(", literal request, .mark ")"]
  | call callee argument => .word callee false :: .mark "(" :: (argument.lexemes ++ [.mark ")"])
  | arrow body => .mark "(" :: .mark ")" :: .mark "=>" :: body.lexemes
  | hollow => [.mark "(", .mark ")", .mark "=>"]
  | nothing => [.word "void" false, .number .zero]
  | quoted t => [literal t]
  | template t => [.quasi t (some t) true]

end Expr

section

variable {c : Char} {rest : List Char}

theorem next_closer (hc : c = ')' ∨ c = ';') (rest : List Char) :
    Next (c :: rest) (.mark (String.singleton c)) rest := by
  rcases hc with rfl | rfl
  · exact next_closing rest
  · exact next_semicolon rest

theorem endsWord_of_closer (hc : c = ')' ∨ c = ';') (rest : List Char) : EndsWord (c :: rest) := by
  intro d hd
  obtain rfl : c = d := by simpa using hd
  rcases hc with rfl | rfl <;> decide

theorem isStringChar_of_isRequestChar (h : isRequestChar c = true) : isStringChar c = true := by
  have hall := forall_ascii (p := fun c => !isRequestChar c || isStringChar c) (by decide +kernel)
    (lt_of_isRequestChar h)
  simpa [h] using hall

theorem isStringChar_of_isOrdinary (h : isOrdinary c = true) (hquote : c ≠ '"') : isStringChar c = true := by
  have hall := forall_ascii (p := fun c => !(isOrdinary c && c != '"') || isStringChar c) (by decide +kernel)
    (lt_of_isOrdinary h)
  simpa [h, hquote] using hall

theorem isTemplateChar_of_isOrdinary (h : isOrdinary c = true) (hback : c ≠ '\x60') (hdollar : c ≠ '$') :
    isTemplateChar c = true := by
  have hall := forall_ascii (p := fun c => !(isOrdinary c && c != '\x60' && c != '$') || isTemplateChar c)
    (by decide +kernel) (lt_of_isOrdinary h)
  simpa [h, hback, hdollar] using hall

theorem next_request {request : String} (h : isRequest request = true) (rest : List Char) :
    Next (Expr.inQuotes request.toList ++ rest) (Expr.literal request) rest := by
  have hchars : request.toList.all isStringChar = true :=
    List.all_eq_true.mpr fun c hc => isStringChar_of_isRequestChar (List.all_eq_true.mp h c hc)
  simpa [Expr.literal] using next_quoted hchars rest

theorem isWord_of_isName {w : String} (h : isName w = true) : isWord w = true :=
  (bare_of_isName h).1

/-- **The tokens of an expression**, with the mark behind it. -/
theorem Expr.lexes {e : Expr} (he : (e.isCode || e.isLiteral) = true) (hc : c = ')' ∨ c = ';')
    (rest : List Char) :
    Lexes (e.text ++ c :: rest) (e.lexemes ++ [.mark (String.singleton c)]) rest := by
  have hlast : ∀ {c : Char} (rest : List Char), c = ')' ∨ c = ';' →
      Lexes (c :: rest) [.mark (String.singleton c)] rest := fun rest hc =>
    .cons (next_closer hc rest) (.nil rest)
  have hopening : ∀ rest, EndsWord ('(' :: rest) := fun rest d hd => by
    obtain rfl : '(' = d := by simpa using hd
    decide
  have hspace : ∀ rest, EndsWord (' ' :: rest) := fun rest d hd => by
    obtain rfl : ' ' = d := by simpa using hd
    decide
  induction e generalizing c rest with
  | name n => exact .cons (next_word (isWord_of_isName (by simpa [isCode, isLiteral] using he))
      (endsWord_of_closer hc rest)) (hlast rest hc)
  | required request =>
    have hrequest : isRequest request = true := by simpa [isCode, isLiteral] using he
    have htext : (required request).text ++ c :: rest =
        "require".toList ++ '(' :: (inQuotes request.toList ++ ')' :: c :: rest) := by
      have hopened : requireText = "require".toList ++ ['('] := rfl
      simp only [text, hopened, List.append_assoc, List.cons_append, List.nil_append]
    have hword : Plain.isWord "require" = true := by decide
    rw [htext]
    exact .cons (next_word hword (hopening _)) (.cons (next_opening _)
      (.cons (next_request hrequest _) (.cons (next_closing _) (hlast rest hc))))
  | call callee argument ih =>
    have hboth : isName callee = true ∧ argument.isCode = true := by simpa [isCode, isLiteral] using he
    have htext : (call callee argument).text ++ c :: rest =
        callee.toList ++ '(' :: (argument.text ++ ')' :: c :: rest) := by simp [text]
    rw [htext]
    refine .cons (next_word (isWord_of_isName hboth.1) (hopening _)) (.cons (next_opening _) ?_)
    exact (ih (by simp [hboth.2]) (.inl rfl) _).append (hlast rest hc)
  | arrow body ih =>
    have hbody : body.isCode = true := by simpa [isCode, isLiteral] using he
    have htext : (arrow body).text ++ c :: rest =
        '(' :: ')' :: ' ' :: '=' :: '>' :: ' ' :: (body.text ++ c :: rest) := rfl
    rw [htext]
    refine .cons (next_opening _) (.cons (next_closing _) (.cons (next_space (next_arrow _)) ?_))
    exact (ih (by simp [hbody]) hc rest).space (by simp)
  | hollow =>
    have htext : hollow.text ++ c :: rest = '(' :: ')' :: ' ' :: '=' :: '>' :: ' ' :: c :: rest := rfl
    rw [htext]
    exact .cons (next_opening _) (.cons (next_closing _) (.cons (next_space (next_arrow _))
      ((hlast rest hc).space (by simp))))
  | nothing =>
    have htext : nothing.text ++ c :: rest = "void".toList ++ ' ' :: '0' :: c :: rest := rfl
    rw [htext]
    have hword : Plain.isWord "void" = true := by decide
    exact .cons (next_word hword (hspace _))
      (.cons (next_space (next_zero hc rest)) (hlast rest hc))
  | quoted t =>
    have hchars : t.toList.all isStringChar = true := by
      have hordinary : ∀ d ∈ t.toList, isOrdinary d = true ∧ d ≠ '"' := by
        simpa [isCode, isLiteral] using he
      exact List.all_eq_true.mpr fun d hd =>
        isStringChar_of_isOrdinary (hordinary d hd).1 (hordinary d hd).2
    have hnext := next_quoted hchars (c :: rest)
    rw [String.ofList_toList] at hnext
    exact .cons hnext (hlast rest hc)
  | template t =>
    have hchars : t.toList.all isTemplateChar = true := by
      have hordinary : ∀ d ∈ t.toList, (isOrdinary d = true ∧ d ≠ '\x60') ∧ d ≠ '$' := by
        simpa [isCode, isLiteral] using he
      exact List.all_eq_true.mpr fun d hd =>
        isTemplateChar_of_isOrdinary (hordinary d hd).1.1 (hordinary d hd).1.2 (hordinary d hd).2
    have hnext := next_template hchars (c :: rest)
    rw [String.ofList_toList] at hnext
    have htext : (template t).text ++ c :: rest = '\x60' :: (t.toList ++ '\x60' :: c :: rest) := by simp [text]
    rw [htext]
    exact .cons hnext (hlast rest hc)

end

/-! ## 2. The tree of an expression -/

/-- The node of a string. -/
def stringNode (t : String) (span : Span) : Tree := .node (.string t false) span []

/-- The node of an arrow function that lacks its expression. -/
def hollowNode (span listSpan bodySpan : Span) : Tree :=
  .node (.arrow false true false false) span
    [.absent, .node .parameters listSpan [], .absent,
      .node .functionBody bodySpan [.node .directives bodySpan [], .node .statements bodySpan []]]

/-- The tree is that of the expression, and no comment stands at a place in it that is looked at: where
an argument starts, and before the parenthesis that closes a call.  `free` says that none stands at a
place. -/
inductive Depicts (free : Nat → Prop) : Expr → Tree → Prop
  | name (n : String) (span : Span) : Depicts free (.name n) (nameNode n span)
  | required (request : String) {span argumentSpan : Span} (calleeSpan : Span) (hend : free (span.stop - 1))
      (hstart : free argumentSpan.start) :
      Depicts free (.required request) (callNode "require" span calleeSpan (stringNode request argumentSpan))
  | call (callee : String) {span : Span} (calleeSpan : Span) {e : Expr} {t : Tree} (hend : free (span.stop - 1))
      (hstart : free t.span.start) (argument : Depicts free e t) :
      Depicts free (.call callee e) (callNode callee span calleeSpan t)
  | arrow (span listSpan bodySpan : Span) {e : Expr} {t : Tree} (body : Depicts free e t) :
      Depicts free (.arrow e) (arrowNode span listSpan bodySpan t)
  | hollow (span listSpan bodySpan : Span) : Depicts free .hollow (hollowNode span listSpan bodySpan)
  | nothing (span zeroSpan : Span) :
      Depicts free .nothing (.node (.unary .voidOf) span [.node (.number .zero) zeroSpan []])
  | quoted (t : String) (span : Span) : Depicts free (.quoted t) (stringNode t span)
  | template (t : String) (span quasiSpan : Span) :
      Depicts free (.template t) (.node .template span [.node (.quasi t (some t)) quasiSpan []])

theorem Depicts.mono {free free' : Nat → Prop} {e : Expr} {t : Tree} (h : Depicts free e t)
    (hfree : ∀ p, free p → free' p) : Depicts free' e t := by
  induction h with
  | name n span => exact .name n span
  | required request calleeSpan hend hstart => exact .required request calleeSpan (hfree _ hend) (hfree _ hstart)
  | call callee calleeSpan hend hstart _ ih => exact .call callee calleeSpan (hfree _ hend) (hfree _ hstart) ih
  | arrow span listSpan bodySpan _ ih => exact .arrow span listSpan bodySpan ih
  | hollow span listSpan bodySpan => exact .hollow span listSpan bodySpan
  | nothing span zeroSpan => exact .nothing span zeroSpan
  | quoted t span => exact .quoted t span
  | template t span quasiSpan => exact .template t span quasiSpan

/-- How deep the rules of the grammar nest. -/
def Expr.depth : Expr → Nat
  | name _ | quoted _ | template _ => 4
  | nothing | hollow => 5
  | required _ => 8
  | call _ argument => argument.depth + 4
  | arrow body => body.depth + 1

/-- The expression has been read: as many tokens as it has, and nothing is missing. -/
structure Read (e : Expr) (s : State) (t : Tree) (u : State) : Prop where
  whole : e.isHollow = false
  state : u = skip e.lexemes.length s
  start : t.span.start = s.token.start
  tree : Depicts (fun p => s.token.start < p ∧ p < u.token.start) e t

/-! ## 3. Reading an expression -/

section

variable {s : State} {fuel : Nat} {rt : Bool}

theorem Expr.lexemes_ne_nil (e : Expr) : e.lexemes ≠ [] := by cases e <;> simp [lexemes]

theorem Sees.past {front back : List Lexeme} {l : Lexeme} (h : Sees (front ++ l :: back) s)
    (hfront : front ≠ []) :
    Sees (l :: back) (Plain.skip front.length s) ∧ s.token.start < (Plain.skip front.length s).token.start ∧
      (Plain.skip front.length s).token.onNewLine = false ∧
      (Plain.skip front.length s).log.comments = s.log.comments := by
  cases front with
  | nil => exact absurd rfl hfront
  | cons first front => exact h.skip

theorem startsItem_of_sees {e : Expr} {l : List Lexeme} (h : Sees (e.lexemes ++ l) s) : StartsItem s := by
  cases e <;> obtain ⟨hlexeme, -⟩ := h <;> simp [StartsItem, hlexeme, Expr.literal]

theorem not_brace_of_sees {e : Expr} {l : List Lexeme} (h : Sees (e.lexemes ++ l) s) :
    s.token.lexeme ≠ .mark "\x7b" := by
  cases e <;> obtain ⟨hlexeme, -⟩ := h <;> simp [hlexeme, Expr.literal]

/-- What has been read of an expression in other surroundings. -/
theorem Read.of_within {e : Expr} {t : Tree} {u : State} {c : Context} (h : Read e (within c s) t u) :
    Read e s t (within s.context u) := by
  obtain ⟨hwhole, hstate, hstart, htree⟩ := h
  refine ⟨hwhole, ?_, hstart, htree⟩
  rw [hstate, skip_within]
  have hcontext := context_skip e.lexemes.length s
  rw [← hcontext]
  rfl

theorem ends_of_sees {m : String} (hm : m = ")" ∨ m = ";") {back : List Lexeme}
    (h : Sees (.mark m :: back) s) : Ends s := by
  rcases hm with rfl | rfl
  · exact .inl h.1
  · exact .inr h.1

/-- An expression with one token. -/
theorem reads_leaf {e : Expr} {lexeme : Lexeme} {t : Tree} (hlexemes : e.lexemes = [lexeme])
    (hleads : Leads lexeme) {m : String} (hm : m = ")" ∨ m = ";") {back : List Lexeme}
    (hs : Sees (e.lexemes ++ .mark m :: back) s)
    (hprimary : Parser.primary (Parser.goal fuel) s = .ok t (Parser.next s))
    (hwhole : e.isHollow = false) (hstart : t.span.start = s.token.start)
    (htree : Depicts (fun p => s.token.start < p ∧ p < (Parser.next s).token.start) e t) :
    (Parser.goal (fuel + 4) (.assignment rt) s).Meets (Read e s) (e.isHollow = true) := by
  rw [hlexemes] at hs
  have hleads : Leads s.token.lexeme := hs.1 ▸ hleads
  have hends : Ends (Parser.next s) := ends_of_sees hm hs.next
  refine Parser.goal_assignment_of_leads fuel hs.ready hleads ?_
  rw [Parser.goal, Parser.callable_of_primary hleads hprimary hends]
  exact ⟨hends, hwhole, by rw [hlexemes]; rfl, hstart, htree⟩

/-- A call of a name. -/
theorem reads_call {w : String} (hw : Bare w) {e argument : Expr}
    (hlexemes : e.lexemes = .word w false :: .mark "(" :: (argument.lexemes ++ [.mark ")"]))
    (hwhole : e.isHollow = argument.isHollow)
    (htree : ∀ (free : Nat → Prop) (span calleeSpan : Span) (a : Tree), free (span.stop - 1) →
      free a.span.start → Depicts free argument a → Depicts free e (callNode w span calleeSpan a))
    {m : String} (hm : m = ")" ∨ m = ";") {back : List Lexeme} (hs : Sees (e.lexemes ++ .mark m :: back) s)
    (hargument : ∀ u, Sees (argument.lexemes ++ .mark ")" :: .mark m :: back) u →
      (Parser.goal fuel (.assignment true) u).Meets (Read argument u) (argument.isHollow = true)) :
    (Parser.goal (fuel + 4) (.assignment rt) s).Meets (Read e s) (e.isHollow = true) := by
  have htokens : e.lexemes ++ .mark m :: back =
      .word w false :: .mark "(" :: (argument.lexemes ++ .mark ")" :: .mark m :: back) := by
    simp [hlexemes]
  have hlength : e.lexemes.length = argument.lexemes.length + 2 + 1 := by simp [hlexemes]
  rw [htokens] at hs
  have hword : s.token.lexeme = .word w false := hs.1
  have hleads : Leads s.token.lexeme := by
    rw [hword]
    exact ⟨hw, rfl⟩
  have hinner : Sees (argument.lexemes ++ .mark ")" :: .mark m :: back) (Parser.next (Parser.next s)) :=
    hs.next.next
  obtain ⟨hclosed, hlt, -⟩ := hinner.past argument.lexemes_ne_nil
  have hends : Ends (Parser.next (skip argument.lexemes.length (Parser.next (Parser.next s)))) :=
    ends_of_sees hm hclosed.next
  have hcontext : (Parser.next (Parser.next s)).context = s.context := context_skip 2 s
  refine Parser.goal_assignment_of_leads fuel hs.ready hleads ?_
  rw [Parser.goal]
  refine Parser.callable_of_call hword hw hs.next.1 (startsItem_of_sees hinner) ?_
  refine (hargument _ (sees_within hinner)).imp (fun a u hread => ?_) (fun h => hwhole ▸ h)
  have hread := hread.of_within
  rw [hcontext] at hread
  obtain ⟨hargumentWhole, hstate, hstart, hargumentTree⟩ := hread
  have hlexeme : u.token.lexeme = .mark ")" := by
    have htoken : u.token = (within s.context u).token := rfl
    rw [htoken, hstate]
    exact hclosed.1
  rw [hstate] at hargumentTree ⊢
  have hnonempty : argument.lexemes ++ .mark ")" :: .mark m :: back ≠ [] := by simp
  have hopening := hs.stop_le (by simp)
  have hopened := hs.next.stop_le hnonempty
  have hclosing := hclosed.stop_le (by simp)
  have hword' := hs.lt_stop
  have hopening' := hs.next.lt_stop
  have hclosing' := hclosed.lt_stop
  refine ⟨hlexeme, hends, hends, hwhole.trans hargumentWhole, by rw [hlength, skip_succ]; rfl, rfl,
    htree _ _ _ _ ?_ ?_ (hargumentTree.mono fun p hp => ?_)⟩
  · dsimp only
    omega
  · rw [hstart]
    omega
  · omega

/-- A string, whatever its characters. -/
theorem reads_string {text m : String} (hm : m = ")" ∨ m = ";") {back : List Lexeme}
    (hs : Sees ((Expr.quoted text).lexemes ++ .mark m :: back) s) :
    (Parser.goal (fuel + 4) (.assignment rt) s).Meets (Read (.quoted text) s)
      ((Expr.quoted text).isHollow = true) :=
  reads_leaf (rfl : (Expr.quoted text).lexemes = [Expr.literal text]) trivial hm hs (Parser.primary_of_string hs.1) rfl rfl
    (.quoted text _)

theorem atArrow_of_sees {l : List Lexeme} (h : Sees (.mark "(" :: .mark ")" :: .mark "=>" :: l) s) :
    AtArrow s :=
  ⟨h.1, h.next.1, h.next.next.1, h.next.ahead.1.2.1⟩

theorem lt_start_skip {l : List Lexeme} {l₁ l₂ l₃ : Lexeme} (h : Sees (l₁ :: l₂ :: l₃ :: l) s) (hne : l ≠ []) :
    s.token.start < (skip 3 s).token.start := by
  have hfirst := h.lt_stop
  have hsecond := h.next.lt_stop
  have hthird := h.next.next.lt_stop
  have hfirst' := h.stop_le (by simp)
  have hsecond' := h.next.stop_le (by simp)
  have hthird' : _ ≤ (skip 3 s).token.start := h.next.next.stop_le hne
  omega

/-- **Reading an expression** comes to its tree, unless an arrow function in it lacks its own. -/
theorem reads {e : Expr} (he : (e.isCode || e.isLiteral) = true) {m : String} (hm : m = ")" ∨ m = ";")
    (hfuel : e.depth ≤ fuel) {back : List Lexeme} (hs : Sees (e.lexemes ++ .mark m :: back) s) :
    (Parser.goal fuel (.assignment rt) s).Meets (Read e s) (e.isHollow = true) := by
  induction e generalizing fuel rt m back s with
  | name n =>
    obtain ⟨fuel, rfl⟩ := Nat.exists_eq_add_of_le' hfuel
    have hn : Bare n := bare_of_isName (by simpa [Expr.isCode, Expr.isLiteral] using he)
    exact reads_leaf (rfl : (Expr.name n).lexemes = [.word n false]) ⟨hn, rfl⟩ hm hs
      (Parser.primary_of_word hs.1 hn) rfl rfl (.name n _)
  | required request =>
    obtain ⟨fuel, rfl⟩ := Nat.exists_eq_add_of_le' hfuel
    refine @reads_call _ (fuel + 4) _ _ bare_require _ (.quoted request) rfl rfl ?_ _ hm _ hs
      fun u hu => reads_string (.inl rfl) hu
    rintro free span calleeSpan _ hend hstart ⟨⟩
    exact .required request calleeSpan hend hstart
  | call callee argument ih =>
    obtain ⟨fuel, rfl⟩ := Nat.exists_eq_add_of_le' (Nat.le_trans (Nat.le_add_left 4 _) hfuel)
    have hboth : isName callee = true ∧ argument.isCode = true := by
      simpa [Expr.isCode, Expr.isLiteral] using he
    exact reads_call (bare_of_isName hboth.1) rfl rfl (fun _ _ calleeSpan _ => .call callee calleeSpan) hm hs
      fun u hu => ih (by simp [hboth.2]) (.inl rfl) (Nat.le_of_add_le_add_right hfuel) hu
  | arrow body ih =>
    obtain ⟨fuel, rfl⟩ := Nat.exists_eq_add_of_le' (Nat.le_trans (Nat.le_add_left 1 _) hfuel)
    have hbody : Sees (body.lexemes ++ .mark m :: back) (skip 3 s) := hs.next.next.next
    have hcontext : (skip 3 s).context = s.context := context_skip 3 s
    refine Parser.goal_assignment_of_arrow fuel hs.ready (atArrow_of_sees hs) (not_brace_of_sees hbody) ?_
    have hcode : body.isCode = true := by simpa [Expr.isCode, Expr.isLiteral] using he
    refine (ih (by simp [hcode]) hm (Nat.le_of_add_le_add_right hfuel) (sees_within hbody)).imp
      (fun t u hread listSpan bodySpan => ?_) id
    have hread := hread.of_within
    rw [hcontext] at hread
    obtain ⟨hwhole, hstate, hstart, htree⟩ := hread
    refine ⟨hwhole, hstate, rfl, .arrow _ listSpan bodySpan (htree.mono fun p hp => ⟨?_, hp.2⟩)⟩
    exact Nat.lt_trans (lt_start_skip hs (by simp)) hp.1
  | hollow =>
    obtain ⟨fuel, rfl⟩ := Nat.exists_eq_add_of_le' hfuel
    have hlast : Sees (.mark m :: back) (skip 3 s) := hs.next.next.next
    have hbrace : (skip 3 s).token.lexeme ≠ .mark "\x7b" := by
      rw [hlast.1]
      rcases hm with rfl | rfl <;> simp
    refine Parser.goal_assignment_of_arrow (fuel + 4) hs.ready (atArrow_of_sees hs) hbrace ?_
    have hmark : m = ")" ∨ m = ";" ∨ m = "*" := hm.imp_right .inl
    have hlost := @Parser.goal_assignment_of_mark _ _ (fun _ _ => False) rt fuel
      (@ready_within _ (arrowContext s.context) hlast.ready) hmark hlast.1
    exact hlost.imp (fun _ _ h => h.elim) fun _ => rfl
  | nothing =>
    obtain ⟨fuel, rfl⟩ := Nat.exists_eq_add_of_le' hfuel
    refine Parser.goal_assignment_of_void fuel hs.ready hs.1 hs.next.1 (ends_of_sees hm hs.next.next) ?_
    exact ⟨rfl, rfl, rfl, .nothing _ _⟩
  | quoted text =>
    obtain ⟨fuel, rfl⟩ := Nat.exists_eq_add_of_le' hfuel
    exact reads_string hm hs
  | template text =>
    obtain ⟨fuel, rfl⟩ := Nat.exists_eq_add_of_le' hfuel
    exact reads_leaf (rfl : (Expr.template text).lexemes = [.quasi text (some text) true]) trivial hm hs
      (Parser.primary_of_quasi hs.1) rfl rfl (.template text _ _)

end

end PackageRefs.Plain
