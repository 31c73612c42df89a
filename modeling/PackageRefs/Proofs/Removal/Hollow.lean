/-
# Arrow functions that lose their expression

Nearly everywhere removal leaves a tree of the kind that it found: a call becomes `void 0`, which is an
expression as the call was, and statement lists and declarations only get shorter.  The one exception is
an arrow function whose body is an expression.  The tree keeps that expression as the only statement of
a list, and removal treats the list as any other, so a call of `require` is dropped and nothing comes in
its place.

An arrow function without its expression is `isHollow`.  `hollow_remove_iff` says of which trees removal
makes one with a hollow arrow function: those in which it looks at an arrow function all of whose body
vanishes (`Hollows`).
-/
import PackageRefs.Proofs.Removal.Reach
import PackageRefs.Script.Traversal

namespace PackageRefs.Script.Tree

variable {goes : String → Bool}

/-! ## 1. Bodies that are expressions -/

/-- The items of a statement list. -/
def statements? : Tree → Option (List Tree)
  | node .statements _ items => some items
  | _ => none

/-- The statements of a function's body. -/
def bodyStatements? : Tree → Option (List Tree)
  | node .functionBody _ [_, list] => list.statements?
  | _ => none

/-- What stands in the place of the expression of an arrow function whose body is one. -/
def arrowExpression? : Tree → Option (List Tree)
  | node (.arrow _ true _ _) _ [_, _, _, body] => body.bodyStatements?
  | _ => none

/-- The node is an arrow function that lacks the expression which is its body. -/
def isHollow (t : Tree) : Bool := t.arrowExpression?.any (·.isEmpty)

/-- The item of a statement list goes as a whole. -/
def vanishes (goes : String → Bool) (t : Tree) : Bool :=
  t.statementSource?.any goes ||
    (isListedDeclaration .listed t.label && t.parts.all (·.declaratorSource?.any goes))

/-- The node is an arrow function whose body is an expression, and removal takes that. -/
def hollowed (goes : String → Bool) (t : Tree) : Bool :=
  t.arrowExpression?.any (·.all (vanishes goes))

/-! ## 2. What vanishes from a list -/

theorem editAll_eq_nil {pos : Position} {ts : List Tree} :
    (editAll goes pos ts).1 = [] ↔ ∀ t ∈ ts, (edit goes pos t).1 = [] := by
  rw [editAll_eq, List.flatMap_eq_nil_iff]

theorem edit_declared_eq_nil {t : Tree} :
    (edit goes .declared t).1 = [] ↔ t.declaratorSource?.any goes = true := by
  rw [edit_declared, edit_elsewhere]
  split <;> simp_all

/-- An item of a statement list vanishes exactly if nothing is left of it. -/
theorem edit_listed_eq_nil {t : Tree} : (edit goes .listed t).1 = [] ↔ t.vanishes goes = true := by
  cases hlabel : isListedDeclaration .listed t.label with
  | false =>
    rw [edit_listed hlabel, edit_elsewhere, vanishes, hlabel]
    split <;> simp_all
  | true =>
    obtain ⟨label, span, parts⟩ := t
    obtain ⟨-, kind, isDeclare, rfl⟩ := isListedDeclaration_eq_true hlabel
    have hparts : (editAll goes .declared parts).1 = [] ↔
        (parts.all fun d => d.declaratorSource?.any goes) = true := by
      simp only [editAll_eq_nil, edit_declared_eq_nil, List.all_eq_true]
    rw [edit_declaration]
    simp only [vanishes, hlabel, Tree.parts, statementSource?, importSource?, Option.any_none,
      Bool.false_or, Bool.true_and, ← hparts, List.isEmpty_iff, ite_eq_left_iff, reduceCtorEq,
      imp_false, not_not]

/-! ## 3. Bodies after an edit -/

theorem statements?_remove (goes : String → Bool) (t : Tree) :
    (remove goes t).1.statements? = t.statements?.map fun ts => (editAll goes .listed ts).1 := by
  refine ask_remove statements? (fun t => t.statements?.map fun ts => (editAll goes .listed ts).1) t
    (fun _ _ _ => rfl) (fun _ _ _ _ => rfl) (fun _ _ => rfl) ?_
  obtain ⟨label, span, parts⟩ := t
  cases label <;> rfl

theorem bodyStatements?_remove (goes : String → Bool) (t : Tree) :
    (remove goes t).1.bodyStatements? =
      t.bodyStatements?.map fun ts => (editAll goes .listed ts).1 := by
  refine ask_remove bodyStatements?
    (fun t => t.bodyStatements?.map fun ts => (editAll goes .listed ts).1) t
    (fun _ _ _ => rfl) (fun _ _ _ _ => rfl) (fun _ _ => rfl) ?_
  obtain ⟨label, span, parts⟩ := t
  cases label with
  | functionBody =>
    have hbelow : Position.below .elsewhere .functionBody parts.length = .elsewhere := rfl
    simp only [Tree.label, Tree.parts, hbelow, editAll_elsewhere]
    rcases parts with _ | ⟨_, _ | ⟨list, _ | _⟩⟩
    · rfl
    · rfl
    · exact statements?_remove goes list
    · rfl
  | _ => rfl

/-- The expression of an arrow function is edited as an item of a statement list. -/
theorem arrowExpression?_edited (goes : String → Bool) (pos : Position) (label : Label) (span : Span)
    (parts : List Tree) :
    (node label span (editAll goes (pos.below label parts.length) parts).1).arrowExpression? =
      (node label span parts).arrowExpression?.map fun ts => (editAll goes .listed ts).1 := by
  cases label with
  | arrow isAsync expressionBody wrapped isPure =>
    have hbelow : pos.below (.arrow isAsync expressionBody wrapped isPure) parts.length =
        .elsewhere := by cases pos <;> rfl
    rw [hbelow, editAll_elsewhere]
    cases expressionBody with
    | false => rfl
    | true =>
      match parts with
      | [_, _, _, body] => exact bodyStatements?_remove goes body
      | [] | [_] | [_, _] | [_, _, _] | _ :: _ :: _ :: _ :: _ :: _ => rfl
  | _ => rfl

/-- An arrow function is hollow after an edit exactly if all of its expression vanishes. -/
theorem isHollow_edited (goes : String → Bool) (pos : Position) (label : Label) (span : Span)
    (parts : List Tree) :
    (node label span (editAll goes (pos.below label parts.length) parts).1).isHollow =
      (node label span parts).hollowed goes := by
  rw [isHollow, arrowExpression?_edited, hollowed]
  cases (node label span parts).arrowExpression? with
  | none => rfl
  | some ts =>
    rw [Bool.eq_iff_iff]
    simp [editAll_eq_nil, edit_listed_eq_nil]

/-- An arrow function does not go itself. -/
theorem not_taken_of_hollowed {t : Tree} (h : t.hollowed goes = true) (pos : Position) :
    t.taken goes pos = false := by
  obtain ⟨label, span, parts⟩ := t
  cases label with
  | arrow isAsync expressionBody wrapped isPure =>
    have htarget : (node (.arrow isAsync expressionBody wrapped isPure) span parts).isTarget goes =
        false := isTarget_of_ne (by simp [Tree.label])
    cases pos <;> simp [taken, htarget, statementSource?, importSource?, declaratorSource?]
  | _ => cases h

/-! ## 4. Whole trees -/

/-- Removal looks at an arrow function and takes its expression. -/
def Hollows (goes : String → Bool) : Position → Tree → Prop :=
  Meets goes fun _ t => t.hollowed goes = true

/-- **An edit makes a hollow arrow function** exactly if it takes the expression of one. -/
theorem hollow_edit_iff (pos : Position) (t : Tree) :
    (∃ u ∈ (edit goes pos t).1, u.anyNode isHollow = true) ↔ Hollows goes pos t := by
  refine anyNode_edit_iff (fun _ => rfl) (fun _ _ _ => rfl) (fun pos label span parts => ?_) pos t
  rw [isHollow_edited]
  exact ⟨fun h => ⟨not_taken_of_hollowed h pos, h⟩, And.right⟩

theorem hollow_remove_iff (goes : String → Bool) (t : Tree) :
    (remove goes t).1.anyNode isHollow = true ↔ Hollows goes .elsewhere t := by
  rw [← hollow_edit_iff, edit_elsewhere]
  simp

instance (pos : Position) (t : Tree) : Decidable (Hollows goes pos t) :=
  decidable_of_iff _ (hollow_edit_iff pos t)

end PackageRefs.Script.Tree
