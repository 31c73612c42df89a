/-
# Removals one after the other

Two removals, one after the other, leave what one removal leaves that takes out the references of both
(`remove_after_remove`).  An edit neither makes nor unmakes a match anywhere else (`taken_edited`): the
second edit takes a node exactly if it would have taken it first, and where the first edit took a node
there is nothing left to look at.

**Declarations lose variables twice.**  A declaration may lose some of its variables to the first edit
and the others to the second.  It is dropped by the edit that takes the last one, as it is by an edit
that takes them all.  A declaration that has no variables to begin with is dropped from a statement list
by every edit, so nothing has to be assumed about such declarations.

**Counts do not compose.**  In `require('a', require('b'))` one reference goes if that to `a` is taken
out first, and two if that to `b` is.  Only a removal that is repeated counts what it should: nothing.
-/
import Mathlib.Data.List.Basic
import PackageRefs.Proofs.Removal.Strip
import PackageRefs.Proofs.Removal.Structural

namespace PackageRefs.Script.Tree

variable {first second : String → Bool}

/-! ## 1. Two tests at once -/

theorem any_or (source? : Option String) (first second : String → Bool) :
    source?.any (fun s => first s || second s) = (source?.any first || source?.any second) := by
  cases source? <;> rfl

/-- An edit for two tests takes what an edit for either takes. -/
theorem taken_or (first second : String → Bool) (pos : Position) (t : Tree) :
    t.taken (fun s => first s || second s) pos = (t.taken first pos || t.taken second pos) := by
  simp only [taken_eq, isTarget, any_or]
  cases decide (pos ≠ .chained) <;>
    simp [Bool.or_assoc, Bool.or_left_comm, Bool.or_comm]

/-- What the first edit puts in the place of a node, an edit for two tests puts there too. -/
theorem replacement_or_of_taken {pos : Position} {t : Tree} (h : t.taken first pos = true) :
    t.replacement (fun s => first s || second s) pos = t.replacement first pos := by
  rw [replacement_eq, replacement_eq, any_or]
  cases hwhole : (wholeSource? pos t).any first with
  | true => rfl
  | false =>
    -- the node goes as an expression, so it has no source as a whole
    have htarget : t.isTarget first = true := by
      rw [taken_eq, hwhole, Bool.false_or, Bool.and_eq_true] at h
      exact h.2
    rw [wholeSource?_of_isTarget htarget]
    rfl

theorem replacement_or_of_not_taken {pos : Position} {label : Label} {span : Span}
    {parts : List Tree} (h : (node label span parts).taken first pos = false) :
    (node label span parts).replacement (fun s => first s || second s) pos =
      (node label span (editAll first (pos.below label parts.length) parts).1).replacement second
        pos := by
  by_cases hpos : pos = .chained
  · subst hpos
    rfl
  · rw [taken_eq, decide_eq_true hpos, Bool.true_and, Bool.or_eq_false_iff] at h
    rw [replacement_eq, replacement_eq, wholeSource?_edited h.1, any_or, h.1, Bool.false_or]
    rfl

/-! ## 2. One edit after the other -/

/-- **What the second edit leaves** of what the first left is what one edit for both tests leaves. -/
theorem editAll_edit (first second : String → Bool) (pos : Position) (t : Tree) :
    (editAll second pos (edit first pos t).1).1 = (edit (fun s => first s || second s) pos t).1 := by
  induction t using nodeInduction generalizing pos with
  | node label span parts ih =>
    cases hfirst : (node label span parts).taken first pos with
    | true =>
      have hboth : (node label span parts).taken (fun s => first s || second s) pos = true := by
        rw [taken_or, hfirst, Bool.true_or]
      rw [edit_of_taken hfirst, edit_of_taken hboth, replacement_or_of_taken hfirst,
        editAll_of_forall]
      intro u hu
      rw [mem_replacement hu]
      exact edit_voidZero second pos _
    | false =>
      have hparts : (editAll second (pos.below label parts.length)
          (editAll first (pos.below label parts.length) parts).1).1 =
            (editAll (fun s => first s || second s) (pos.below label parts.length) parts).1 := by
        simp only [editAll_eq, List.flatMap_assoc]
        refine List.flatMap_congr fun p hp => ?_
        rw [← editAll_eq]
        exact ih p hp _
      have hboth : (node label span parts).taken (fun s => first s || second s) pos =
          (node label span parts).taken second pos := by
        rw [taken_or, hfirst, Bool.false_or]
      have hstill := taken_edited second hfirst
      rw [edit_node hfirst]
      dsimp only
      split
      · -- the declaration lost its last variable to the first edit
        rename_i hempty
        obtain ⟨hlabel, hkept⟩ := Bool.and_eq_true_iff.mp hempty
        obtain ⟨rfl, kind, isDeclare, rfl⟩ := isListedDeclaration_eq_true hlabel
        rw [List.isEmpty_iff.mp hkept] at hparts
        rw [edit_node (hboth.trans rfl)]
        dsimp only
        rw [← hparts]
        rfl
      · rw [editAll, editAll]
        dsimp only
        rw [List.append_nil]
        cases hsecond : (node label span parts).taken second pos with
        | true =>
          rw [edit_of_taken (hstill.trans hsecond), edit_of_taken (hboth.trans hsecond),
            replacement_or_of_not_taken hfirst]
        | false =>
          rw [edit_node (hstill.trans hsecond), edit_node (hboth.trans hsecond), below_edited]
          dsimp only
          rw [hparts]

/-! ## 3. Whole trees -/

/-- **Removals compose**: one after the other they leave what one removal for both tests leaves. -/
theorem remove_after_remove (first second : String → Bool) (t : Tree) :
    (remove second (remove first t).1).1 = (remove (fun s => first s || second s) t).1 := by
  have hedit := editAll_edit first second .elsewhere t
  simpa [edit_elsewhere, editAll_elsewhere] using hedit

/-- A removal that takes all that another takes makes up for the other. -/
theorem remove_after_weaker (h : ∀ s, first s = true → second s = true) (t : Tree) :
    (remove second (remove first t).1).1 = (remove second t).1 := by
  have hor : (fun s => first s || second s) = second := by
    funext s
    cases hs : first s with
    | true => rw [h s hs, Bool.true_or]
    | false => rw [Bool.false_or]
  rw [remove_after_remove, hor]

/-- What has exactly the name of a package has the name in it. -/
theorem substring_of_exact {package request : String}
    (h : MatchMode.exact.test package request = true) :
    MatchMode.substring.test package request = true := by
  rw [MatchMode.test_exact] at h
  rw [h]
  exact occursIn_iff.mpr (List.infix_refl _)

/-- **Removals of packages compose**, whatever the two packages and the two ways to compare them with
the texts of references: one after the other they leave the tree that one removal for both leaves.  So
their order does not matter, a removal that is repeated changes nothing and counts nothing, and an exact
removal before the removal of all that has the same name in it makes no difference. -/
theorem packageRemovals_compose (mode otherMode : MatchMode) (package other : String) (t : Tree) :
    let removed (t : Tree) := remove (mode.accepts · package) t
    let otherRemoved (t : Tree) := remove (otherMode.accepts · other) t
    (otherRemoved (removed t).1).1 =
        (remove (fun s => mode.accepts s package || otherMode.accepts s other) t).1 ∧
      (otherRemoved (removed t).1).1 = (removed (otherRemoved t).1).1 ∧
      removed (removed t).1 = ((removed t).1, 0) ∧
      (remove (MatchMode.substring.accepts · package)
          (remove (MatchMode.exact.accepts · package) t).1).1 =
        (remove (MatchMode.substring.accepts · package) t).1 := by
  intro removed otherRemoved
  have hboth := remove_after_remove (mode.test package) (otherMode.test other) t
  refine ⟨hboth, ?_, remove_remove _ t, remove_after_weaker (fun _ => substring_of_exact) t⟩
  calc (otherRemoved (removed t).1).1
    _ = (remove (fun s => mode.test package s || otherMode.test other s) t).1 := hboth
    _ = (remove (fun s => otherMode.test other s || mode.test package s) t).1 := by
      simp only [Bool.or_comm]
    _ = (removed (otherRemoved t).1).1 :=
      (remove_after_remove (otherMode.test other) (mode.test package) t).symm

/- One reference stands in the other: the first removal takes both nodes and counts one, or it takes the
inner one and leaves the outer one to the second. -/
example :
    let require (arguments : List Tree) : Tree := make (.call false false)
      (make (.identifier "require") [] :: absent :: arguments)
    let t := require [make (.string "a" false) [], require [make (.string "b" false) []]]
    let removed (package : String) (t : Tree) := remove (MatchMode.exact.accepts · package) t
    (removed "b" (removed "a" t).1).2 = 0 ∧ (removed "a" (removed "b" t).1).2 = 1 := by
  decide

end PackageRefs.Script.Tree
