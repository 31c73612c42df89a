/-
# Removal as one edit

`Tree.remove` and its three companions walk a tree together: one for nodes, one for parts, one for
statement lists and one for declarations.  This module puts them into one function.  What is done
with a node depends on the node and on how it stands in its parent (`Position`), and the edit of a
node is

* nothing or `void 0` if the node is `taken` where it stands, and
* otherwise the node with its parts edited, each as it stands in the node.

`edit_node` is this equation, and `walks` reads the four walks off the edit, all four at once as
they call each other.  Everything later is an induction over the tree with `edit_node`, and comes back
to removal by `edit_elsewhere`.
-/
import PackageRefs.Proofs.Reference.Mention

namespace PackageRefs.Script

/-! ## 1. Positions -/

/-- How a node stands in its parent, as far as removal goes. -/
inductive Position where
  /-- an item of a statement list -/
  | listed
  /-- a variable of a declaration in a statement list -/
  | declared
  /-- the whole of an optional chain, where no `void 0` can stand -/
  | chained
  /-- anything else -/
  | elsewhere
  deriving DecidableEq

namespace Position

/-- How the parts of a node stand in it, by the node's own position, its label and the number of its
parts. -/
def below : Position → Label → Nat → Position
  | .chained, _, _ => .elsewhere
  | .listed, .variableList .., _ => .declared
  | _, .statements, _ => .listed
  | _, .chain, 1 => .chained
  | _, _, _ => .elsewhere

end Position

namespace Tree

/-- The node goes where it stands, with everything in it. -/
def taken (goes : String → Bool) : Position → Tree → Bool
  | .listed, t => t.statementSource?.any goes || t.isTarget goes
  | .declared, t => t.declaratorSource?.any goes || t.isTarget goes
  | .chained, _ => false
  | .elsewhere, t => t.isTarget goes

/-- What stands in the place of a node that goes. -/
def replacement (goes : String → Bool) (pos : Position) (t : Tree) : List Tree :=
  match pos with
  | .listed => if t.statementSource?.any goes then [] else [voidZero t.span]
  | .declared => if t.declaratorSource?.any goes then [] else [voidZero t.span]
  | _ => [voidZero t.span]

/-- The node is a declaration in a statement list. -/
def isListedDeclaration (pos : Position) (label : Label) : Bool :=
  match pos, label with
  | .listed, .variableList .. => true
  | _, _ => false

mutual

/-- What an edit leaves of a node, which is one tree at most, and how much went. -/
def edit (goes : String → Bool) : Position → Tree → List Tree × Nat
  | pos, node label span parts =>
    if (node label span parts).taken goes pos then ((node label span parts).replacement goes pos, 1)
    else
      let (kept, count) := editAll goes (pos.below label parts.length) parts
      if isListedDeclaration pos label && kept.isEmpty then ([], count)
      else ([node label span kept], count)

/-- What an edit leaves of several nodes. -/
def editAll (goes : String → Bool) : Position → List Tree → List Tree × Nat
  | _, [] => ([], 0)
  | pos, t :: ts =>
    let (first, count) := edit goes pos t
    let (others, more) := editAll goes pos ts
    (first ++ others, count + more)

end

theorem isListedDeclaration_eq_true {pos : Position} {label : Label}
    (h : isListedDeclaration pos label = true) :
    pos = .listed ∧ ∃ kind isDeclare, label = .variableList kind isDeclare := by
  unfold isListedDeclaration at h
  split at h
  · exact ⟨rfl, _, _, rfl⟩
  · cases h

/-! ## 2. The equation of the edit -/

variable {goes : String → Bool}

theorem editAll_eq (goes : String → Bool) (pos : Position) (ts : List Tree) :
    (editAll goes pos ts).1 = ts.flatMap fun t => (edit goes pos t).1 := by
  induction ts with
  | nil => rfl
  | cons t ts ih => simp [editAll, ih]

theorem editAll_count_pos {pos : Position} {ts : List Tree} :
    0 < (editAll goes pos ts).2 ↔ ∃ t ∈ ts, 0 < (edit goes pos t).2 := by
  induction ts with
  | nil => simp [editAll]
  | cons t ts ih =>
    simp only [editAll, List.mem_cons, exists_eq_or_imp, ← ih]
    omega

@[simp] theorem taken_elsewhere (goes : String → Bool) (t : Tree) :
    t.taken goes .elsewhere = t.isTarget goes := rfl

theorem edit_of_taken {pos : Position} {t : Tree} (h : t.taken goes pos = true) :
    edit goes pos t = (t.replacement goes pos, 1) := by
  obtain ⟨label, span, parts⟩ := t
  rw [edit, if_pos h]

/-- A node that does not go has its parts edited. -/
theorem edit_node {pos : Position} {label : Label} {span : Span} {parts : List Tree}
    (h : (node label span parts).taken goes pos = false) :
    edit goes pos (node label span parts) =
      let edited := editAll goes (pos.below label parts.length) parts
      (if isListedDeclaration pos label && edited.1.isEmpty then []
        else [node label span edited.1], edited.2) := by
  rw [edit, h, if_neg Bool.false_ne_true]
  dsimp only
  split <;> rfl

/-! ## 3. Positions compared -/

theorem below_declared (label : Label) (n : Nat) :
    Position.below .declared label n = Position.below .elsewhere label n := by
  unfold Position.below
  split <;> simp_all

theorem below_listed {label : Label} (h : isListedDeclaration .listed label = false) (n : Nat) :
    Position.below .listed label n = Position.below .elsewhere label n := by
  unfold Position.below
  split <;> simp_all [isListedDeclaration]

/-- Where a node may be dropped without anything in its place, it is, or it is edited like a node
elsewhere. -/
theorem edit_of_dropped {pos : Position} {t : Tree} {dropped : Bool}
    (htaken : t.taken goes pos = (dropped || t.isTarget goes))
    (hreplacement : t.replacement goes pos = if dropped then [] else [voidZero t.span])
    (hbelow : ∀ n, pos.below t.label n = Position.below .elsewhere t.label n)
    (hlabel : isListedDeclaration pos t.label = false) :
    edit goes pos t = if dropped then ([], 1) else edit goes .elsewhere t := by
  obtain ⟨label, span, parts⟩ := t
  have hbelow : ∀ n, pos.below label n = Position.below .elsewhere label n := hbelow
  have hlabel : isListedDeclaration pos label = false := hlabel
  cases dropped with
  | true => rw [edit_of_taken (by simp [htaken]), hreplacement, if_pos rfl, if_pos rfl]
  | false =>
    rw [Bool.false_or] at htaken
    rw [if_neg Bool.false_ne_true]
    cases ht : (node label span parts).taken goes .elsewhere with
    | true =>
      rw [edit_of_taken (htaken.trans ht), edit_of_taken ht, hreplacement]
      rfl
    | false =>
      rw [edit_node (htaken.trans ht), edit_node ht, hbelow, hlabel]
      rfl

/-- In a statement list a statement that names a source is dropped, and any other that is no
declaration is edited like a node elsewhere. -/
theorem edit_listed {t : Tree} (h : isListedDeclaration .listed t.label = false) :
    edit goes .listed t =
      if t.statementSource?.any goes then ([], 1) else edit goes .elsewhere t :=
  edit_of_dropped rfl rfl (below_listed h) h

theorem edit_declared (t : Tree) :
    edit goes .declared t =
      if t.declaratorSource?.any goes then ([], 1) else edit goes .elsewhere t :=
  edit_of_dropped rfl rfl (below_declared t.label) rfl

theorem edit_chained (goes : String → Bool) (label : Label) (span : Span) (parts : List Tree) :
    edit goes .chained (node label span parts) =
      ([node label span (editAll goes .elsewhere parts).1], (editAll goes .elsewhere parts).2) := by
  rw [edit_node rfl]
  simp [isListedDeclaration, Position.below]

/-! ## 4. The four walks -/

theorem removeFromParts_of {ts : List Tree}
    (h : ∀ t ∈ ts, edit goes .elsewhere t = ([(remove goes t).1], (remove goes t).2)) :
    editAll goes .elsewhere ts = removeFromParts goes ts := by
  induction ts with
  | nil => rfl
  | cons t ts ih =>
    rw [editAll, h t (by simp), ih fun u hu => h u (by simp [hu]), removeFromParts]
    rfl

theorem removeFromDeclarators_of {ts : List Tree}
    (h : ∀ t ∈ ts, edit goes .elsewhere t = ([(remove goes t).1], (remove goes t).2)) :
    editAll goes .declared ts = removeFromDeclarators goes ts := by
  induction ts with
  | nil => rfl
  | cons t ts ih =>
    rw [editAll, edit_declared, h t (by simp), ih fun u hu => h u (by simp [hu]),
      removeFromDeclarators]
    dsimp only
    split <;> simp [Nat.add_comm]

/-- A declaration in a statement list stays as long as one of its variables does. -/
theorem edit_declaration (kind : VariableKind) (isDeclare : Bool) (span : Span)
    (parts : List Tree) :
    edit goes .listed (node (.variableList kind isDeclare) span parts) =
      let edited := editAll goes .declared parts
      (if edited.1.isEmpty then [] else [node (.variableList kind isDeclare) span edited.1],
        edited.2) := by
  rw [edit_node rfl]
  rfl

theorem removeFromStatements_cons {t : Tree}
    (h : isListedDeclaration .listed t.label = false) (ts : List Tree) :
    removeFromStatements goes (t :: ts) =
      let (others, more) := removeFromStatements goes ts
      if t.statementSource?.any goes then (others, more + 1)
      else ((remove goes t).1 :: others, (remove goes t).2 + more) := by
  obtain ⟨label, span, parts⟩ := t
  cases label <;> first | rfl | cases h

theorem removeFromStatements_of {ts : List Tree}
    (h : ∀ t ∈ ts, edit goes .elsewhere t = ([(remove goes t).1], (remove goes t).2))
    (hd : ∀ t ∈ ts, editAll goes .declared t.parts = removeFromDeclarators goes t.parts) :
    editAll goes .listed ts = removeFromStatements goes ts := by
  induction ts with
  | nil => rfl
  | cons t ts ih =>
    have ih := ih (fun u hu => h u (by simp [hu])) (fun u hu => hd u (by simp [hu]))
    cases hlabel : isListedDeclaration .listed t.label with
    | false =>
      rw [editAll, ih, edit_listed hlabel, h t (by simp), removeFromStatements_cons hlabel]
      dsimp only
      split <;> simp [Nat.add_comm]
    | true =>
      obtain ⟨label, span, parts⟩ := t
      obtain ⟨-, kind, isDeclare, rfl⟩ := isListedDeclaration_eq_true hlabel
      have hparts : editAll goes .declared parts = removeFromDeclarators goes parts :=
        hd _ (List.mem_cons_self ..)
      rw [editAll, ih, edit_declaration, hparts, removeFromStatements]
      cases hkept : (removeFromDeclarators goes parts).1 <;> simp [hkept]

/-- What the edit says of the four walks, for a node and its parts. -/
structure Walks (goes : String → Bool) (t : Tree) : Prop where
  node : edit goes .elsewhere t = ([(remove goes t).1], (remove goes t).2)
  parts : editAll goes .elsewhere t.parts = removeFromParts goes t.parts
  statements : editAll goes .listed t.parts = removeFromStatements goes t.parts
  declarators : editAll goes .declared t.parts = removeFromDeclarators goes t.parts

/-- Away from statement lists and from chains of one part, a call of `require` that is to go becomes
`void 0`, and any other node has its parts edited. -/
theorem remove_node {label : Label} {span : Span} {parts : List Tree}
    (hbelow : Position.below .elsewhere label parts.length = .elsewhere) :
    remove goes (node label span parts) =
      if (node label span parts).isTarget goes then (voidZero span, 1)
      else (node label span (removeFromParts goes parts).1, (removeFromParts goes parts).2) := by
  cases label <;> first | rfl | cases hbelow | skip
  match parts, hbelow with
  | [], _ => rfl
  | node .. :: _ :: _, _ => rfl

theorem walks (goes : String → Bool) (t : Tree) : Walks goes t := by
  induction t using nodeInduction with
  | node label span parts ih =>
    have hparts := removeFromParts_of fun t ht => (ih t ht).node
    have hdeclarators := removeFromDeclarators_of fun t ht => (ih t ht).node
    have hstatements := removeFromStatements_of (fun t ht => (ih t ht).node)
      fun t ht => (ih t ht).declarators
    refine ⟨?_, hparts, hstatements, hdeclarators⟩
    cases hbelow : Position.below .elsewhere label parts.length with
    | elsewhere =>
      rw [remove_node hbelow]
      cases ht : (Tree.node label span parts).taken goes .elsewhere with
      | true =>
        rw [edit_of_taken ht, if_pos (by simpa using ht)]
        rfl
      | false =>
        rw [edit_node ht, hbelow, if_neg (by simpa using ht)]
        exact congrArg (fun edited => ([Tree.node label span edited.1], edited.2)) hparts
    | listed =>
      obtain rfl : label = .statements := by
        unfold Position.below at hbelow
        split at hbelow <;> simp_all
      rw [edit_node rfl, hbelow]
      exact congrArg (fun edited => ([Tree.node .statements span edited.1], edited.2)) hstatements
    | chained =>
      obtain ⟨rfl, inner, rfl⟩ : label = .chain ∧ ∃ inner, parts = [inner] := by
        unfold Position.below at hbelow
        split at hbelow <;> simp_all [List.length_eq_one_iff]
      obtain ⟨innerLabel, innerSpan, innerParts⟩ := inner
      have hinner : editAll goes .elsewhere innerParts = removeFromParts goes innerParts :=
        (ih _ (List.mem_singleton_self _)).parts
      rw [edit_node rfl, hbelow, editAll, edit_chained, hinner]
      rfl
    | declared =>
      unfold Position.below at hbelow
      split at hbelow <;> simp_all

/-- Removal is the edit of a node that stands anywhere. -/
theorem edit_elsewhere (goes : String → Bool) (t : Tree) :
    edit goes .elsewhere t = ([(remove goes t).1], (remove goes t).2) :=
  (walks goes t).node

theorem editAll_elsewhere (goes : String → Bool) (ts : List Tree) :
    (editAll goes .elsewhere ts).1 = ts.map fun t => (remove goes t).1 := by
  simp [editAll_eq, edit_elsewhere, ← List.map_eq_flatMap]

/-! ## 5. What stays of a single node -/

/-- Removal puts `void 0` in the place of a node, or edits its parts. -/
theorem remove_cases (goes : String → Bool) (t : Tree) :
    (t.isTarget goes = true ∧ (remove goes t).1 = voidZero t.span) ∨
      (remove goes t).1 = node t.label t.span
        (editAll goes (Position.below .elsewhere t.label t.parts.length) t.parts).1 := by
  obtain ⟨label, span, parts⟩ := t
  have hedit := edit_elsewhere goes (node label span parts)
  cases ht : (node label span parts).taken goes .elsewhere with
  | true =>
    rw [edit_of_taken ht] at hedit
    refine .inl ⟨ht, ?_⟩
    simpa [replacement] using (congrArg Prod.fst hedit).symm
  | false =>
    rw [edit_node ht] at hedit
    refine .inr ?_
    simpa [isListedDeclaration, Tree.label, Tree.span, Tree.parts] using
      (congrArg Prod.fst hedit).symm

/-- A node that stays elsewhere keeps its label and has its parts edited. -/
theorem remove_of_not_target {label : Label} {span : Span} {parts : List Tree}
    (h : (node label span parts).isTarget goes = false) :
    (remove goes (node label span parts)).1 =
      node label span (editAll goes (Position.below .elsewhere label parts.length) parts).1 := by
  rcases remove_cases goes (node label span parts) with ⟨htarget, -⟩ | hremove
  · rw [h] at htarget
    cases htarget
  · exact hremove

/-- What calls `require` is a call or in parentheses. -/
theorem label_of_isTarget {t : Tree} (h : t.isTarget goes = true) :
    (∃ isOptional isPure, t.label = .call isOptional isPure) ∨ t.label = .parenthesized := by
  rcases isTarget_cases h with hrequire | ⟨span, inner, rfl, -⟩
  · obtain ⟨label, span, parts⟩ := t
    cases label <;> first | exact .inl ⟨_, _, rfl⟩ | cases hrequire
  · exact .inr rfl

/-- The source that a node names as a whole, where such a node is dropped with nothing in its place. -/
def wholeSource? : Position → Tree → Option String
  | .listed, t => t.statementSource?
  | .declared, t => t.declaratorSource?
  | _, _ => none

theorem taken_eq (goes : String → Bool) (pos : Position) (t : Tree) :
    t.taken goes pos =
      (decide (pos ≠ .chained) && ((wholeSource? pos t).any goes || t.isTarget goes)) := by
  cases pos <;> simp [taken, wholeSource?]

theorem replacement_eq (goes : String → Bool) (pos : Position) (t : Tree) :
    t.replacement goes pos = if (wholeSource? pos t).any goes then [] else [voidZero t.span] := by
  cases pos <;> rfl

/-- What calls `require` is an expression, and names no source as a statement or a variable does. -/
theorem wholeSource?_of_isTarget {t : Tree} (h : t.isTarget goes = true) (pos : Position) :
    wholeSource? pos t = none := by
  obtain ⟨label, span, parts⟩ := t
  rcases label_of_isTarget h with ⟨isOptional, isPure, hlabel⟩ | hlabel <;>
    (simp only [Tree.label] at hlabel; subst hlabel; cases pos <;> rfl)

/-- A question that has no answer for operators after a removal, nor for calls and parentheses before
it, is answered by looking at nodes that stay. -/
theorem ask_remove {α : Type} (after before : Tree → Option α) (t : Tree)
    (hunary : ∀ op span parts, after (node (.unary op) span parts) = none)
    (hcall : ∀ isOptional isPure span parts,
      before (node (.call isOptional isPure) span parts) = none)
    (hparenthesized : ∀ span parts, before (node .parenthesized span parts) = none)
    (hstays : after (node t.label t.span
      (editAll goes (Position.below .elsewhere t.label t.parts.length) t.parts).1) = before t) :
    after (remove goes t).1 = before t := by
  rcases remove_cases goes t with ⟨htarget, hremove⟩ | hremove
  · rw [hremove, voidZero, hunary]
    obtain ⟨label, span, parts⟩ := t
    rcases label_of_isTarget htarget with ⟨_, _, rfl⟩ | rfl
    · rw [hcall]
    · rw [hparenthesized]
  · rw [hremove, hstays]

@[simp] theorem identifierName?_remove (goes : String → Bool) (t : Tree) :
    (remove goes t).1.identifierName? = t.identifierName? := by
  refine ask_remove identifierName? identifierName? t (fun _ _ _ => rfl) (fun _ _ _ _ => rfl)
    (fun _ _ => rfl) ?_
  obtain ⟨label, span, parts⟩ := t
  cases label <;> rfl

@[simp] theorem stringValue?_remove (goes : String → Bool) (t : Tree) :
    (remove goes t).1.stringValue? = t.stringValue? := by
  refine ask_remove stringValue? stringValue? t (fun _ _ _ => rfl) (fun _ _ _ _ => rfl) (fun _ _ => rfl) ?_
  obtain ⟨label, span, parts⟩ := t
  cases label <;> rfl

end Tree

end PackageRefs.Script
