/-
# Induction over trees, ways, and parentheses

`Tree.nodeInduction` is the one induction that proofs about trees use: a property of every part is a
property of the node.  It hides that a tree holds a list of trees.  `anyNode_node` is its counterpart
for what some node of a tree is, and `at?` says which node it is, by the way down to it.

The other facts are about parentheses.  Whether an expression calls `require` is asked of what stands
inside them, so a node is either a single pair of parentheses, and then as its part, or it answers
for itself.
-/
import Mathlib.Tactic.Common
import PackageRefs.Reference.Node
import PackageRefs.Script.Traversal

namespace PackageRefs.Script.Tree

/-! ## 1. Induction -/

/-- A property holds of every tree if it holds of a node whenever it holds of all its parts. -/
@[elab_as_elim]
theorem nodeInduction {motive : Tree → Prop}
    (node : ∀ label span parts, (∀ p ∈ parts, motive p) → motive (node label span parts))
    (t : Tree) : motive t := by
  refine Tree.rec (motive_1 := motive) (motive_2 := fun ts => ∀ t ∈ ts, motive t) node ?_ ?_ t
  · simp
  · intro t ts ht hts u hu
    rcases List.mem_cons.mp hu with rfl | hu
    · exact ht
    · exact hts u hu

theorem anyNodeOf_iff {p : Tree → Bool} {ts : List Tree} :
    anyNodeOf p ts = true ↔ ∃ t ∈ ts, t.anyNode p = true := by
  induction ts with
  | nil => simp [anyNodeOf]
  | cons t ts ih => simp [anyNodeOf, ih]

theorem anyNode_node {p : Tree → Bool} {label : Label} {span : Span} {parts : List Tree} :
    (node label span parts).anyNode p = true ↔
      p (node label span parts) = true ∨ ∃ t ∈ parts, t.anyNode p = true := by
  rw [anyNode, Bool.or_eq_true, anyNodeOf_iff]

/-! ## 2. Ways down -/

/-- The node at the end of a way down.  The first number of the way is the place of a part of the node,
and the others lead on from there. -/
def at? : Tree → List Nat → Option Tree
  | t, [] => some t
  | t, i :: way =>
    match t.parts[i]? with
    | some p => p.at? way
    | none => none

/-! ## 3. Parentheses -/

@[simp] theorem requiredBy?_parenthesized (span : Span) (inner : Tree) :
    (node .parenthesized span [inner]).requiredBy? = inner.requiredBy? := by
  simp only [requiredBy?, withoutParentheses]

/-- A node that is not in parentheses answers for itself. -/
theorem requiredBy?_of_ne {t : Tree} (h : t.label ≠ .parenthesized) :
    t.requiredBy? = t.requireSource? := by
  unfold requiredBy?
  rw [withoutParentheses.eq_def]
  split
  · simp [label] at h
  · rfl

/-- What calls `require` is a call, or a pair of parentheses around what does. -/
theorem requiredBy?_eq_some {t : Tree} {source : String} (h : t.requiredBy? = some source) :
    t.requireSource? = some source ∨
      ∃ span inner, t = node .parenthesized span [inner] ∧ inner.requiredBy? = some source := by
  obtain ⟨label, span, parts⟩ := t
  by_cases hlabel : label = .parenthesized
  · subst hlabel
    match parts with
    | [inner] => exact .inr ⟨span, inner, rfl, by simpa using h⟩
    | [] | _ :: _ :: _ => simp [requiredBy?, withoutParentheses, requireSource?] at h
  · have hown : (node label span parts).requiredBy? = (node label span parts).requireSource? :=
      requiredBy?_of_ne hlabel
    exact .inl (hown.symm.trans h)

end PackageRefs.Script.Tree
