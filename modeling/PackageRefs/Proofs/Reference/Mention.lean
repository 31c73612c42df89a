/-
# Which packages a tree mentions

`Tree.Mentions` says that some reference in a tree goes, for a test on the texts of references.  A
node mentions what it names itself and what its parts mention (`mentions_node`), and a node names what
an import names or what a call of `require` names (`names_eq`).
-/
import PackageRefs.Proofs.Script.Tree
import PackageRefs.Removal.Tree

namespace PackageRefs.Script.Tree

variable {goes : String → Bool}

/-! ## 1. What a node names itself -/

/-- The reference that the node itself makes is one that goes. -/
def names (goes : String → Bool) (t : Tree) : Bool := t.ownReference?.any (goes ·.request)

theorem importSource?_eq_none {t : Tree} (h : t.requireSource?.isSome) : t.importSource? = none := by
  obtain ⟨label, span, parts⟩ := t
  cases label <;> first | rfl | cases h

/-- A node makes a reference as an import or as a call. -/
theorem names_eq (goes : String → Bool) (t : Tree) :
    t.names goes = (t.importSource?.any goes || t.requireSource?.any goes) := by
  unfold names ownReference?
  cases hrequire : t.requireSource? with
  | none => cases t.importSource? <;> simp
  | some source =>
    rw [importSource?_eq_none (by rw [hrequire]; rfl)]
    rfl

/-! ## 2. What a tree mentions -/

/-- Some reference in the tree goes. -/
def Mentions (goes : String → Bool) (t : Tree) : Prop := ∃ r ∈ t.references, goes r.request = true

theorem referencesIn_eq (ts : List Tree) : referencesIn ts = ts.flatMap references := by
  induction ts with
  | nil => rfl
  | cons t ts ih => simp [referencesIn, ih]

theorem mentions_node {label : Label} {span : Span} {parts : List Tree} :
    Mentions goes (node label span parts) ↔
      (node label span parts).names goes = true ∨ ∃ p ∈ parts, Mentions goes p := by
  simp only [Mentions, references, referencesIn_eq, List.mem_append, List.mem_flatMap, names,
    Option.mem_toList, Option.any_eq_true, or_and_right, exists_or]
  refine or_congr Iff.rfl ⟨?_, ?_⟩
  · rintro ⟨r, ⟨p, hp, hr⟩, hgoes⟩
    exact ⟨p, hp, r, hr, hgoes⟩
  · rintro ⟨p, hp, r, hr, hgoes⟩
    exact ⟨r, ⟨p, hp, hr⟩, hgoes⟩

/-- A tree mentions what some node of it names. -/
theorem mentions_iff_anyNode {t : Tree} : Mentions goes t ↔ t.anyNode (names goes) = true := by
  induction t using nodeInduction with
  | node label span parts ih =>
    rw [mentions_node, anyNode_node]
    exact or_congr_right (exists_congr fun p => and_congr_right (ih p))

theorem mentions_of_names {t : Tree} (h : t.names goes = true) : Mentions goes t := by
  obtain ⟨label, span, parts⟩ := t
  exact mentions_node.mpr (.inl h)

/-- What calls `require` is a call, or a pair of parentheses around what does. -/
theorem isTarget_cases {t : Tree} (h : t.isTarget goes = true) :
    t.requireSource?.any goes = true ∨
      ∃ span inner, t = node .parenthesized span [inner] ∧ inner.isTarget goes = true := by
  obtain ⟨source, hsource, hgoes⟩ := (Option.any_eq_true ..).mp h
  rcases requiredBy?_eq_some hsource with hrequire | ⟨span, inner, rfl, hinner⟩
  · exact .inl ((Option.any_eq_true ..).mpr ⟨source, hrequire, hgoes⟩)
  · exact .inr ⟨span, inner, rfl, (Option.any_eq_true ..).mpr ⟨source, hinner, hgoes⟩⟩

theorem isTarget_of_ne {t : Tree} (h : t.label ≠ .parenthesized) :
    t.isTarget goes = t.requireSource?.any goes := by
  rw [isTarget, requiredBy?_of_ne h]

/-- An expression that calls `require` mentions what it calls it with, however many parentheses stand
around it. -/
theorem mentions_of_isTarget {t : Tree} (h : t.isTarget goes = true) : Mentions goes t := by
  induction t using nodeInduction with
  | node label span parts ih =>
    rcases isTarget_cases h with hrequire | ⟨_, inner, heq, hinner⟩
    · refine mentions_of_names ?_
      rw [names_eq, hrequire, Bool.or_true]
    · obtain ⟨rfl, rfl, rfl⟩ : label = .parenthesized ∧ _ ∧ parts = [inner] := by simpa using heq
      exact mentions_node.mpr (.inr ⟨inner, by simp, ih inner (by simp) hinner⟩)

end PackageRefs.Script.Tree
