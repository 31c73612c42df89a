/-
# Removal from a plain script

What removal from the tree comes to on the lines: a statement that is a request goes, and a request elsewhere
becomes `void 0` or, as the body of an arrow function, leaves nothing (`Expr.remove`, `Line.left?`).

* `Displays.remove`: the tree that removal leaves is that of the lines that are left.
* `Displays.not_goes`: where removal finds nothing, no line requests anything that goes.
* `Displays.anyHollow`: a hollow arrow function of the tree is one of a line.
-/
import PackageRefs.Proofs.Plain.Spoil
import PackageRefs.Proofs.Removal.Hollow

namespace PackageRefs.Plain

open PackageRefs.Script PackageRefs.Text
open Script.Parser (nameNode callNode arrowNode constantNode variableNode)

variable {goes : String → Bool}

/-! ## 1. Removal from an expression -/

namespace Expr

/-- The whole expression is a request that goes. -/
def isGone (goes : String → Bool) : Expr → Bool
  | required request => goes request
  | _ => false

/-- The expression without the requests that go. -/
def remove (goes : String → Bool) : Expr → Expr
  | required request => if goes request then nothing else required request
  | call callee argument => call callee (argument.remove goes)
  | arrow body => if body.isGone goes then hollow else arrow (body.remove goes)
  | e => e

theorem isCode_remove (goes : String → Bool) {e : Expr} (h : e.isCode = true) : (e.remove goes).isCode = true := by
  induction e with
  | required request =>
    rw [remove]
    split
    · rfl
    · exact h
  | call callee argument ih =>
    rw [isCode, Bool.and_eq_true] at h
    simp [remove, isCode, h.1, ih h.2]
  | arrow body ih =>
    rw [remove]
    split
    · rfl
    · exact ih h
  | _ => exact h

end Expr

section

variable {free : Nat → Prop} {e : Expr} {t : Tree}

theorem isTarget_of_label {l : Label} (span : Span) (parts : List Tree)
    (hl : ∀ optional isPure, l ≠ .call optional isPure) (hparentheses : l ≠ .parenthesized) :
    (Script.Tree.node l span parts).isTarget goes = false := by
  refine Bool.eq_false_iff.mpr fun h => ?_
  rcases Tree.label_of_isTarget h with ⟨optional, isPure, hcall⟩ | h
  · exact hl optional isPure hcall
  · exact hparentheses h

theorem remove_absent : Tree.absent.remove goes = (.absent, 0) := rfl

theorem remove_nameNode (w : String) (span : Span) : (nameNode w span).remove goes = (nameNode w span, 0) := rfl

theorem remove_stringNode (t : String) (span : Span) :
    (stringNode t span).remove goes = (stringNode t span, 0) := rfl

theorem remove_callNode {w : String} (hw : w ≠ "require") (span calleeSpan : Span) (t : Tree) :
    (callNode w span calleeSpan t).remove goes =
      (callNode w span calleeSpan (t.remove goes).1, (t.remove goes).2) := by
  have htarget : (callNode w span calleeSpan t).isTarget goes = false := by
    simp [Tree.isTarget, Tree.requiredBy?, Tree.withoutParentheses, Tree.requireSource?, callNode, nameNode,
      Tree.identifierName?, hw]
  rw [callNode] at htarget
  simp [callNode, Tree.remove, htarget, Tree.removeFromParts, remove_absent, remove_nameNode]

theorem remove_requireNode (request : String) (span calleeSpan argumentSpan : Span) :
    (callNode "require" span calleeSpan (stringNode request argumentSpan)).remove goes =
      if goes request then (Tree.voidZero span, 1)
      else (callNode "require" span calleeSpan (stringNode request argumentSpan), 0) := by
  have htarget : (callNode "require" span calleeSpan (stringNode request argumentSpan)).isTarget goes =
      goes request := by
    simp [Tree.isTarget, Tree.requiredBy?, Tree.withoutParentheses, Tree.requireSource?, callNode, nameNode,
      Tree.identifierName?, stringNode, Tree.stringValue?]
  rw [callNode] at htarget ⊢
  simp [Tree.remove, htarget, Tree.removeFromParts, remove_absent, remove_nameNode, remove_stringNode]

theorem remove_arrowNode (span listSpan bodySpan : Span) (t : Tree) :
    (arrowNode span listSpan bodySpan t).remove goes =
      if t.requiredBy?.any goes then (hollowNode span listSpan bodySpan, 1)
      else (arrowNode span listSpan bodySpan (t.remove goes).1, (t.remove goes).2) := by
  have hsource : (Script.Tree.node .expressionStatement bodySpan [t]).statementSource? = t.requiredBy? := rfl
  have htarget : ∀ (l : Label) (span : Span) (parts : List Tree), (∀ optional isPure, l ≠ .call optional isPure) →
      l ≠ .parenthesized → (Script.Tree.node l span parts).isTarget goes = false :=
    fun l span parts => isTarget_of_label span parts
  simp only [arrowNode, hollowNode, Tree.remove, htarget, Tree.removeFromParts, Tree.removeFromStatements,
    remove_absent, hsource, ne_eq, reduceCtorEq, not_false_eq_true, implies_true, Bool.false_eq_true, if_false]
  split <;> simp

theorem ne_require_of_isName {w : String} (h : isName w = true) : w ≠ "require" := by
  rintro rfl
  exact absurd h (by decide)

/-- The whole expression goes exactly if its tree is taken. -/
theorem Depicts.requiredBy? (h : Depicts free e t) (hcode : e.isCode = true) :
    t.requiredBy?.any goes = e.isGone goes := by
  cases h with
  | required request =>
    simp [Tree.requiredBy?, Tree.withoutParentheses, Tree.requireSource?, callNode, nameNode,
      Tree.identifierName?, stringNode, Tree.stringValue?, Expr.isGone]
  | call callee =>
    rw [Expr.isCode, Bool.and_eq_true] at hcode
    simp [Tree.requiredBy?, Tree.withoutParentheses, Tree.requireSource?, callNode, nameNode,
      Tree.identifierName?, ne_require_of_isName hcode.1, Expr.isGone]
  | quoted t | template t => cases hcode
  | _ => rfl

theorem span_remove (t : Tree) : (t.remove goes).1.span = t.span := by
  rcases Tree.remove_cases goes t with ⟨-, h⟩ | h <;> rw [h] <;> rfl

/-- **Removal from an expression.** -/
theorem Depicts.remove (h : Depicts free e t) (hcode : e.isCode = true) :
    Depicts free (e.remove goes) (t.remove goes).1 := by
  induction h with
  | name n span => exact .name n span
  | @required request span argumentSpan calleeSpan hend hstart =>
    rw [Expr.remove, remove_requireNode]
    split
    · exact .nothing span span
    · exact .required request calleeSpan hend hstart
  | call callee calleeSpan hend hstart _ ih =>
    rw [Expr.isCode, Bool.and_eq_true] at hcode
    rw [Expr.remove, remove_callNode (ne_require_of_isName hcode.1)]
    exact .call callee calleeSpan hend (by rwa [span_remove]) (ih hcode.2)
  | arrow span listSpan bodySpan hbody ih =>
    rw [Expr.remove, remove_arrowNode, hbody.requiredBy? hcode]
    split
    · exact .hollow span listSpan bodySpan
    · exact .arrow span listSpan bodySpan (ih hcode)
  | hollow span listSpan bodySpan => exact .hollow span listSpan bodySpan
  | nothing span zeroSpan => exact .nothing span zeroSpan
  | quoted t span => cases hcode
  | template t span quasiSpan => cases hcode

/-- A request that goes is counted. -/
theorem Depicts.count_pos (h : Depicts free e t) (hcode : e.isCode = true)
    (hgoes : ∃ request ∈ e.requests, goes request = true) : 0 < (t.remove goes).2 := by
  obtain ⟨request, hmem, hgoes⟩ := hgoes
  induction h with
  | required =>
    obtain rfl := List.mem_singleton.mp hmem
    simp [remove_requireNode, hgoes]
  | call callee calleeSpan hend hstart _ ih =>
    rw [Expr.isCode, Bool.and_eq_true] at hcode
    rw [remove_callNode (ne_require_of_isName hcode.1)]
    exact ih hcode.2 hmem
  | arrow span listSpan bodySpan hbody ih =>
    rw [remove_arrowNode]
    split
    · exact Nat.one_pos
    · exact ih hcode hmem
  | _ => cases hmem

theorem Depicts.anyHollow (h : Depicts free e t) : t.anyNode Tree.isHollow = e.isHollow := by
  induction h with
  | call callee calleeSpan hend hstart _ ih =>
    simpa [callNode, nameNode, Tree.anyNode, Tree.anyNodeOf, Tree.isHollow, Tree.arrowExpression?, Tree.absent,
      Expr.isHollow] using ih
  | arrow span listSpan bodySpan _ ih =>
    simpa [arrowNode, Tree.anyNode, Tree.anyNodeOf, Tree.isHollow, Tree.arrowExpression?, Tree.bodyStatements?,
      Tree.statements?, Tree.absent, Expr.isHollow] using ih
  | _ => rfl

end

/-! ## 2. Removal from a statement -/

namespace Line

/-- What is left of a line without the requests that go. -/
def left? (goes : String → Bool) : Line → Option Line
  | imported request => if goes request then none else some (imported request)
  | bound name value => if value.isGone goes then none else some (bound name (value.remove goes))
  | run e => if e.isGone goes then none else some (run (e.remove goes))
  | l => some l

end Line

theorem isGone_of_isLiteral {e : Expr} (h : e.isLiteral = true) :
    e.isGone goes = false ∧ e.remove goes = e := by
  cases e <;> first | exact ⟨rfl, rfl⟩ | cases h

section

variable {free : Nat → Prop} {l l' : Line} {t : Tree} {e : Expr} {ls : List Line} {ts : List Tree}

theorem Line.isPlain_left? (h : l.isPlain = true) (hleft : l.left? goes = some l') : l'.isPlain = true := by
  cases l with
  | bound name value =>
    simp only [left?, ite_eq_iff, reduceCtorEq, and_false, false_or, Option.some.injEq] at hleft
    obtain ⟨-, rfl⟩ := hleft
    simp only [isPlain, Bool.and_eq_true, Bool.or_eq_true] at h ⊢
    refine ⟨h.1, h.2.imp (Expr.isCode_remove goes) fun hliteral => ?_⟩
    rwa [(isGone_of_isLiteral hliteral).2]
  | run e =>
    simp only [left?, ite_eq_iff, reduceCtorEq, and_false, false_or, Option.some.injEq] at hleft
    obtain ⟨-, rfl⟩ := hleft
    exact Expr.isCode_remove goes h
  | imported request =>
    simp only [left?, ite_eq_iff, reduceCtorEq, and_false, false_or, Option.some.injEq] at hleft
    obtain ⟨-, rfl⟩ := hleft
    exact h
  | _ =>
    obtain rfl := Option.some.inj hleft
    exact h

theorem Depicts.requiredBy?_of_plain (goes : String → Bool) (h : Depicts free e t) (hplain : (e.isCode || e.isLiteral) = true) :
    t.requiredBy?.any goes = e.isGone goes ∧ Depicts free (e.remove goes) (t.remove goes).1 := by
  rcases Bool.or_eq_true_iff.mp hplain with hcode | hliteral
  · exact ⟨h.requiredBy? hcode, h.remove hcode⟩
  · cases h with
    | quoted t span => exact ⟨rfl, .quoted t span⟩
    | template t span quasiSpan => exact ⟨rfl, .template t span quasiSpan⟩
    | _ => cases hliteral

theorem edit_importNode (request : String) (span sourceSpan : Span) :
    Tree.edit goes .listed (importNode request span sourceSpan) =
      if goes request then ([], 1) else ([importNode request span sourceSpan], 0) := by
  have hsource : (importNode request span sourceSpan).statementSource? = some request := rfl
  have hremove : (importNode request span sourceSpan).remove goes = (importNode request span sourceSpan, 0) := rfl
  rw [Tree.edit_listed rfl, hsource, Tree.edit_elsewhere, hremove]
  rfl

theorem edit_expressionStatement (span : Span) (t : Tree) :
    Tree.edit goes .listed (.node .expressionStatement span [t]) =
      if t.requiredBy?.any goes then ([], 1)
      else ([.node .expressionStatement span [(t.remove goes).1]], (t.remove goes).2) := by
  have hsource : (Script.Tree.node .expressionStatement span [t]).statementSource? = t.requiredBy? := rfl
  have htarget : (Script.Tree.node .expressionStatement span [t]).isTarget goes = false :=
    isTarget_of_label span [t] (by simp) (by simp)
  rw [Tree.edit_listed rfl, hsource, Tree.edit_elsewhere]
  simp [Tree.remove, htarget, Tree.removeFromParts]

theorem edit_constantNode (name : String) (span variableSpan nameSpan : Span) (t : Tree) :
    Tree.edit goes .listed (constantNode name span variableSpan nameSpan t) =
      if t.requiredBy?.any goes then ([], 1)
      else ([constantNode name span variableSpan nameSpan (t.remove goes).1], (t.remove goes).2) := by
  have hsource : (variableNode name variableSpan nameSpan t).declaratorSource? = t.requiredBy? := rfl
  have htarget : (variableNode name variableSpan nameSpan t).isTarget goes = false :=
    isTarget_of_label _ _ (by simp) (by simp)
  have hname : (Script.Tree.node (.binding name) nameSpan []).isTarget goes = false := rfl
  have hremove : (variableNode name variableSpan nameSpan t).remove goes =
      (variableNode name variableSpan nameSpan (t.remove goes).1, (t.remove goes).2) := by
    rw [variableNode] at htarget
    simp [variableNode, Tree.remove, htarget, Tree.removeFromParts, hname]
  rw [constantNode, Tree.edit_declaration]
  simp only [Tree.editAll, Tree.edit_declared, hsource, Tree.edit_elsewhere, hremove]
  split <;> simp [constantNode]

/-- **Removal from a statement.** -/
theorem Shows.edit (h : Shows free l t) (hplain : l.isPlain = true) :
    List.Forall₂ (Shows free) (l.left? goes).toList (Tree.edit goes .listed t).1 := by
  cases h with
  | imported request span sourceSpan =>
    rw [edit_importNode, Line.left?]
    split
    · exact .nil
    · exact .cons (.imported request span sourceSpan) .nil
  | @bound name span variableSpan nameSpan value t h =>
    rw [Line.isPlain, Bool.and_eq_true] at hplain
    obtain ⟨hgone, hremove⟩ := h.requiredBy?_of_plain goes hplain.2
    rw [edit_constantNode, Line.left?, hgone]
    split
    · exact .nil
    · exact .cons (.bound name span variableSpan nameSpan hremove) .nil
  | @run span e t h =>
    obtain ⟨hgone, hremove⟩ := h.requiredBy?_of_plain goes (by simp [show e.isCode = true from hplain])
    rw [edit_expressionStatement, Line.left?, hgone]
    split
    · exact .nil
    · exact .cons (.run span hremove) .nil

/-- A request that goes is counted. -/
theorem Shows.count_pos (h : Shows free l t) (hplain : l.isPlain = true)
    (hgoes : ∃ request ∈ l.requests, goes request = true) : 0 < (Tree.edit goes .listed t).2 := by
  cases h with
  | imported request span sourceSpan =>
    obtain ⟨_, hmem, hgoes⟩ := hgoes
    obtain rfl := List.mem_singleton.mp hmem
    rw [edit_importNode, if_pos hgoes]
    exact Nat.one_pos
  | @bound name span variableSpan nameSpan value t h =>
    rw [Line.isPlain, Bool.and_eq_true, Bool.or_eq_true] at hplain
    have hcode : value.isCode = true := hplain.2.resolve_right fun hliteral => by
      obtain ⟨_, hmem, -⟩ := hgoes
      cases value <;> first | cases hliteral | cases hmem
    rw [edit_constantNode]
    split
    · exact Nat.one_pos
    · exact h.count_pos hcode hgoes
  | run span h =>
    rw [edit_expressionStatement]
    split
    · exact Nat.one_pos
    · exact h.count_pos hplain hgoes

theorem Shows.anyHollow (h : Shows free l t) : t.anyNode Tree.isHollow = l.isHollow := by
  cases h with
  | imported => rfl
  | bound name span variableSpan nameSpan h =>
    simpa [constantNode, variableNode, Tree.anyNode, Tree.anyNodeOf, Tree.isHollow, Tree.arrowExpression?,
      Line.isHollow] using h.anyHollow
  | run span h =>
    simpa [Tree.anyNode, Tree.anyNodeOf, Tree.isHollow, Tree.arrowExpression?, Line.isHollow] using h.anyHollow

/-! ## 3. Removal from a script -/

variable {lines : List Line} {comments : List Comment}

theorem editAll_shows (h : List.Forall₂ (Shows free) ls ts) (hplain : ∀ l ∈ ls, l.isPlain = true) :
    List.Forall₂ (Shows free) (ls.filterMap (Line.left? goes)) (Tree.editAll goes .listed ts).1 := by
  induction h with
  | nil => exact .nil
  | @cons l t ls ts hshows _ ih =>
    rw [List.forall_mem_cons] at hplain
    have hlist : (l :: ls).filterMap (Line.left? goes) =
        (l.left? goes).toList ++ ls.filterMap (Line.left? goes) := by
      rw [List.filterMap_cons]
      cases l.left? goes <;> rfl
    rw [hlist, Tree.editAll_eq, List.flatMap_cons, ← Tree.editAll_eq]
    exact List.rel_append (hshows.edit hplain.1) (ih hplain.2)

theorem editAll_count_pos (h : List.Forall₂ (Shows free) ls ts) (hplain : ∀ l ∈ ls, l.isPlain = true)
    (hgoes : ∃ l ∈ ls, ∃ request ∈ l.requests, goes request = true) : 0 < (Tree.editAll goes .listed ts).2 := by
  obtain ⟨l, hl, hgoes⟩ := hgoes
  obtain ⟨t, ht, hshows⟩ : ∃ t ∈ ts, Shows free l t := by
    clear hplain
    induction h with
    | nil => cases hl
    | cons hshows _ ih =>
      rcases List.mem_cons.mp hl with rfl | hl
      · exact ⟨_, List.mem_cons_self .., hshows⟩
      · obtain ⟨t, ht, hshows⟩ := ih hl
        exact ⟨t, List.mem_cons_of_mem _ ht, hshows⟩
  exact Tree.editAll_count_pos.mpr ⟨t, ht, hshows.count_pos (hplain l hl) hgoes⟩

theorem anyHollow_of_shows (h : List.Forall₂ (Shows free) ls ts) :
    Tree.anyNodeOf Tree.isHollow ts = ls.any Line.isHollow := by
  induction h with
  | nil => rfl
  | cons hshows _ ih => rw [Tree.anyNodeOf, hshows.anyHollow, ih, List.any_cons]

theorem remove_program (span directivesSpan statementsSpan : Span) (ts : List Tree) :
    (Script.Tree.node (.program none) span
        [.node .directives directivesSpan [], .node .statements statementsSpan ts]).remove goes =
      (.node (.program none) span [.node .directives directivesSpan [],
        .node .statements statementsSpan (Tree.editAll goes .listed ts).1], (Tree.editAll goes .listed ts).2) := by
  have hwalks := (Tree.walks goes (.node .statements statementsSpan ts)).statements
  rw [Tree.parts] at hwalks
  have htarget : ∀ (l : Label) (span : Span) (parts : List Tree), (∀ optional isPure, l ≠ .call optional isPure) →
      l ≠ .parenthesized → (Script.Tree.node l span parts).isTarget goes = false :=
    fun l span parts => isTarget_of_label span parts
  simp [Tree.remove, htarget, Tree.removeFromParts, hwalks]

theorem mem_statements {l : Line} (h : l ∈ statements lines) : l ∈ lines ∧ l.isComment = false := by
  simpa [statements] using h

/-- **Removal from a script** leaves the tree of what is left of the statements. -/
theorem Displays.remove (h : Displays lines comments t) (hplain : ∀ l ∈ lines, l.isPlain = true) :
    Displays ((statements lines).filterMap (Line.left? goes)) comments (t.remove goes).1 := by
  obtain ⟨hown, ts, ⟨span, directivesSpan, statementsSpan, rfl⟩, hshows⟩ := h
  have hleft : ∀ l ∈ (statements lines).filterMap (Line.left? goes), l.isComment = false := by
    intro l hl
    obtain ⟨l', hl', hleft⟩ := List.mem_filterMap.mp hl
    have hcode := (mem_statements hl').2
    cases l' with
    | imported request | bound name value | run e =>
      simp only [Line.left?, ite_eq_iff, reduceCtorEq, and_false, false_or, Option.some.injEq] at hleft
      obtain ⟨-, rfl⟩ := hleft
      rfl
    | note _ | block _ | shelved _ _ _ => cases hcode
  have hstatements : statements ((statements lines).filterMap (Line.left? goes)) =
      (statements lines).filterMap (Line.left? goes) :=
    List.filter_eq_self.mpr fun l hl => by simp [hleft l hl]
  refine ⟨hown, _, ⟨span, directivesSpan, statementsSpan, by rw [remove_program]⟩, ?_⟩
  rw [hstatements]
  exact editAll_shows hshows fun l hl => hplain l (mem_statements hl).1

theorem isPlain_of_mem_left (goes : String → Bool) (hplain : ∀ l ∈ lines, l.isPlain = true) :
    ∀ l ∈ (statements lines).filterMap (Line.left? goes), l.isPlain = true := by
  intro l hl
  obtain ⟨l', hl', hleft⟩ := List.mem_filterMap.mp hl
  exact Line.isPlain_left? (hplain l' (mem_statements hl').1) hleft

/-- A script that exposes no reference has no request that goes. -/
theorem Displays.not_goes (h : Displays lines comments t) (hplain : ∀ l ∈ lines, l.isPlain = true)
    (hexposes : ¬Tree.Exposes goes .elsewhere t) : ∀ l ∈ lines, ∀ request ∈ l.requests, goes request = false := by
  obtain ⟨-, ts, ⟨span, directivesSpan, statementsSpan, rfl⟩, hshows⟩ := h
  intro l hl request hrequest
  refine Bool.eq_false_iff.mpr fun hgoes => hexposes ?_
  have hcode : l.isComment = false := by cases l <;> first | rfl | cases hrequest
  rw [← Tree.remove_count_pos_iff, remove_program]
  exact editAll_count_pos hshows (fun l hl => hplain l (mem_statements hl).1)
    ⟨l, by simpa [statements, hcode] using hl, request, hrequest, hgoes⟩

theorem any_isHollow_statements (lines : List Line) :
    (statements lines).any Line.isHollow = lines.any Line.isHollow := by
  have hcode : ∀ l : Line, (!l.isComment && l.isHollow) = l.isHollow := fun l => by cases l <;> rfl
  simp only [statements, List.any_filter, hcode]

/-- The tree has a hollow arrow function exactly if a line has. -/
theorem Displays.anyHollow (h : Displays lines comments t) :
    t.anyNode Tree.isHollow = lines.any Line.isHollow := by
  obtain ⟨-, ts, ⟨span, directivesSpan, statementsSpan, rfl⟩, hshows⟩ := h
  simpa [Tree.anyNode, Tree.anyNodeOf, Tree.isHollow, Tree.arrowExpression?, any_isHollow_statements] using
    anyHollow_of_shows hshows

end

end PackageRefs.Plain
