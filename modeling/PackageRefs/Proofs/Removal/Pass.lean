/-
# A statement list in three passes

`Tree.removeFromStatements` goes over a statement list once.  The same can be done in three passes, each over
the whole list, and then the number that is reported is put together from the lengths of lists:

1. Every declaration of the list loses the variables that go, and these are counted.
2. The declarations without variables are dropped, and the statements that name a source which goes.  Counted
   are the statements that the list became shorter by, less the declarations without variables, as the
   variables of these are counted already.
3. What is left is searched for calls.

`removeFromStatements_eq_passes` says that this is the same, and that neither subtraction goes below zero.
-/
import Mathlib.Algebra.GroupWithZero.Nat
import PackageRefs.Proofs.Removal.Edit

namespace PackageRefs.Script.Tree

variable {goes : String → Bool}

/-! ## 1. The passes -/

/-- What the first pass makes of an item: a declaration loses the variables that go. -/
def withoutVariables (goes : String → Bool) : Tree → Tree
  | node (.variableList kind isDeclare) span ds =>
    node (.variableList kind isDeclare) span (ds.filter fun d => !d.declaratorSource?.any goes)
  | t => t

/-- How many variables the first pass drops from an item. -/
def variablesDropped (goes : String → Bool) (t : Tree) : Nat :=
  t.parts.length - (t.withoutVariables goes).parts.length

/-- The item is a declaration without variables. -/
def isEmptyDeclaration : Tree → Bool
  | node (.variableList ..) _ parts => parts.isEmpty
  | _ => false

/-- The second pass leaves the item in the list. -/
def isRetained (goes : String → Bool) : Tree → Bool
  | node (.variableList ..) _ parts => !parts.isEmpty
  | t => !t.statementSource?.any goes

/-! ## 2. The first pass -/

theorem withoutVariables_of_not {t : Tree} (h : isListedDeclaration .listed t.label = false) :
    t.withoutVariables goes = t := by
  obtain ⟨label, span, parts⟩ := t
  cases label <;> first | rfl | cases h

theorem isRetained_of_not {t : Tree} (h : isListedDeclaration .listed t.label = false) :
    t.isRetained goes = !t.statementSource?.any goes := by
  obtain ⟨label, span, parts⟩ := t
  cases label <;> first | rfl | cases h

theorem isEmptyDeclaration_of_not {t : Tree} (h : isListedDeclaration .listed t.label = false) :
    t.isEmptyDeclaration = false := by
  obtain ⟨label, span, parts⟩ := t
  cases label <;> first | rfl | cases h

/-- The variables of a declaration: some are dropped and counted, and the others are searched. -/
theorem removeFromDeclarators_eq (goes : String → Bool) (ds : List Tree) :
    let kept := ds.filter fun d => !d.declaratorSource?.any goes
    removeFromDeclarators goes ds =
      ((removeFromParts goes kept).1, ds.length - kept.length + (removeFromParts goes kept).2) := by
  induction ds with
  | nil => rfl
  | cons d ds ih =>
    dsimp only at ih ⊢
    have hle := List.length_filter_le (fun d => !d.declaratorSource?.any goes) ds
    rw [removeFromDeclarators, ih, List.filter_cons]
    cases d.declaratorSource?.any goes with
    | true =>
      simp only [Bool.not_true, Bool.false_eq_true, if_true, if_false, List.length_cons, Prod.mk.injEq,
        true_and]
      omega
    | false =>
      simp only [Bool.not_false, Bool.false_eq_true, if_true, if_false, List.length_cons, removeFromParts,
        Prod.mk.injEq, true_and]
      omega

/-! ## 3. The second pass -/

/-- An item of a list either stays, or is a declaration without variables, or names a source that goes. -/
theorem length_eq_retained_add (goes : String → Bool) (ts : List Tree) :
    ts.length = (ts.filter (isRetained goes)).length + ts.countP isEmptyDeclaration +
      ts.countP (fun t => t.statementSource?.any goes) := by
  rw [← List.countP_eq_length_filter]
  induction ts with
  | nil => rfl
  | cons t ts ih =>
    have hone : (if t.isRetained goes then 1 else 0) + (if t.isEmptyDeclaration then 1 else 0) +
        (if t.statementSource?.any goes then 1 else 0) = 1 := by
      cases hlabel : isListedDeclaration .listed t.label with
      | false =>
        rw [isRetained_of_not hlabel, isEmptyDeclaration_of_not hlabel]
        cases t.statementSource?.any goes <;> rfl
      | true =>
        obtain ⟨label, span, parts⟩ := t
        obtain ⟨-, kind, isDeclare, rfl⟩ := isListedDeclaration_eq_true hlabel
        cases parts <;> rfl
    rw [List.countP_cons, List.countP_cons, List.countP_cons, List.length_cons]
    omega

/-! ## 4. All passes -/

/-- One item of a list, as all passes treat it. -/
theorem removeFromStatements_item (goes : String → Bool) (t : Tree) (ts : List Tree) :
    let declared := t.withoutVariables goes
    removeFromStatements goes (t :: ts) =
      ((if declared.isRetained goes then [(remove goes declared).1] else []) ++
          (removeFromStatements goes ts).1,
        t.variablesDropped goes + (if declared.statementSource?.any goes then 1 else 0) +
          (if declared.isRetained goes then (remove goes declared).2 else 0) +
            (removeFromStatements goes ts).2) := by
  intro declared
  cases hlabel : isListedDeclaration .listed t.label with
  | false =>
    have hdeclared : declared = t := withoutVariables_of_not hlabel
    rw [hdeclared, removeFromStatements_cons hlabel, isRetained_of_not hlabel, variablesDropped,
      withoutVariables_of_not hlabel, Nat.sub_self]
    cases t.statementSource?.any goes with
    | true => simp [Nat.add_comm]
    | false => simp
  | true =>
    obtain ⟨label, span, ds⟩ := t
    obtain ⟨-, kind, isDeclare, rfl⟩ := isListedDeclaration_eq_true hlabel
    have hdeclared : declared = node (.variableList kind isDeclare) span
        (ds.filter fun d => !d.declaratorSource?.any goes) := rfl
    have hother : (node (.variableList kind isDeclare) span ds).variablesDropped goes =
      ds.length - (ds.filter fun d => !d.declaratorSource?.any goes).length := rfl
    rw [hdeclared, hother, removeFromStatements, removeFromDeclarators_eq]
    cases ds.filter fun d => !d.declaratorSource?.any goes with
    | nil => simp [isRetained, statementSource?, importSource?, removeFromParts]
    | cons d kept =>
      have hlabel : (node (.variableList kind isDeclare) span (d :: kept)).isTarget goes = false :=
        isTarget_of_ne (by simp [Tree.label])
      have hremove := @remove_node goes (.variableList kind isDeclare) span (d :: kept) rfl
      rw [hlabel, if_neg Bool.false_ne_true] at hremove
      simp [isRetained, statementSource?, importSource?, hremove, removeFromParts]

/-- **A statement list in three passes**: with `declared` what the first pass makes of the items and `kept` what
the second one leaves, a list is edited to what the search of `kept` leaves, and reported are the variables that
were dropped, the items by which the list became shorter less the declarations that were emptied, and what the
search counts.  Neither subtraction goes below zero. -/
theorem removeFromStatements_eq_passes (goes : String → Bool) (ts : List Tree) :
    let declared := ts.map (withoutVariables goes)
    let kept := declared.filter (isRetained goes)
    let emptied := declared.countP isEmptyDeclaration
    kept.length ≤ declared.length ∧ emptied ≤ declared.length - kept.length ∧
      removeFromStatements goes ts =
        ((removeFromParts goes kept).1,
          (ts.map (variablesDropped goes)).sum + (declared.length - kept.length - emptied) +
            (removeFromParts goes kept).2) := by
  intro declared kept emptied
  have hlength : declared.length = kept.length + emptied + declared.countP (·.statementSource?.any goes) :=
    length_eq_retained_add goes declared
  have hmatching : declared.length - kept.length - emptied =
      declared.countP (·.statementSource?.any goes) := by omega
  refine ⟨List.length_filter_le .., by omega, ?_⟩
  rw [hmatching]
  clear hlength hmatching
  induction ts with
  | nil => rfl
  | cons t ts ih =>
    simp only [declared, kept] at ih ⊢
    rw [removeFromStatements_item, ih, List.map_cons, List.filter_cons, List.countP_cons, List.map_cons,
      List.sum_cons]
    split
    · simp only [removeFromParts, List.cons_append, List.nil_append, Prod.mk.injEq, true_and]
      omega
    · simp only [List.nil_append, Prod.mk.injEq, true_and]
      omega

end PackageRefs.Script.Tree
