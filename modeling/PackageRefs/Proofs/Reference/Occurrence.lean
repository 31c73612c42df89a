/-
# Every reference is found, and found once

`Tree.references` goes over a tree; this module says what it finds without going over anything.

* `Tree.at? way` is the node at the end of a way down, which is a list of places of parts.  So a node
  that occurs in a tree twice, at the ends of two ways, counts twice.
* `Refers` says what a reference is: an import declaration refers to its source, and a call of the name
  `require` refers to the text of its first argument if that is a string literal.

**The result** (`references_enumerated`): the references of a tree match, one to one and in the same
order, the ways at the end of which there is a node that refers to something.  The ways are in the order
in which a reader comes to the nodes: a node stands before its parts, and a part before the parts to its
right.
-/
import Mathlib.Data.List.Forall2
import PackageRefs.Proofs.Script.Tree

namespace PackageRefs.Script.Tree

/-! ## 1. What refers to something -/

/-- The node itself, whatever stands around it, refers to a package. -/
inductive Refers : Tree → Reference → Prop
  /-- An import declaration refers to its source, whatever it imports from there. -/
  | importDeclaration (typeOnly : Bool) (phase : Option String) (specifiers attributes : Tree)
      (source : String) (lone : Bool) (span sourceSpan : Span) (sourceParts : List Tree) :
      Refers (node (.importDeclaration typeOnly phase) span
        [specifiers, node (.string source lone) sourceSpan sourceParts, attributes]) ⟨.import, source⟩
  /-- A call of the name `require` refers to its first argument, whatever other arguments it has. -/
  | requireCall (isOptional isPure : Bool) (typeArguments : Tree) (arguments : List Tree)
      (request : String) (lone : Bool) (span nameSpan requestSpan : Span)
      (nameParts requestParts : List Tree) :
      Refers (node (.call isOptional isPure) span
        (node (.identifier "require") nameSpan nameParts :: typeArguments ::
          node (.string request lone) requestSpan requestParts :: arguments)) ⟨.require, request⟩

theorem stringValue?_eq_some_iff {t : Tree} {value : String} :
    t.stringValue? = some value ↔ ∃ lone span parts, t = node (.string value lone) span parts := by
  constructor
  · intro h
    unfold stringValue? at h
    split at h
    · cases h
      exact ⟨_, _, _, rfl⟩
    · cases h
  · rintro ⟨lone, span, parts, rfl⟩
    rfl

theorem identifierName?_eq_some_iff {t : Tree} {name : String} :
    t.identifierName? = some name ↔ ∃ span parts, t = node (.identifier name) span parts := by
  constructor
  · intro h
    unfold identifierName? at h
    split at h
    · cases h
      exact ⟨_, _, rfl⟩
    · cases h
  · rintro ⟨span, parts, rfl⟩
    rfl

theorem refers_of_importSource? {t : Tree} {source : String} (h : t.importSource? = some source) :
    Refers t ⟨.import, source⟩ := by
  unfold importSource? at h
  split at h
  · obtain ⟨lone, span, parts, rfl⟩ := stringValue?_eq_some_iff.mp h
    exact .importDeclaration ..
  · cases h

theorem refers_of_requireSource? {t : Tree} {request : String} (h : t.requireSource? = some request) :
    Refers t ⟨.require, request⟩ := by
  unfold requireSource? at h
  split at h
  · split at h
    · rename_i hname
      obtain ⟨nameSpan, nameParts, rfl⟩ := identifierName?_eq_some_iff.mp (beq_iff_eq.mp hname)
      obtain ⟨lone, span, parts, rfl⟩ := stringValue?_eq_some_iff.mp h
      exact .requireCall ..
    · cases h
  · cases h

/-- A node makes at most one reference, and this is the one that is looked up. -/
theorem refers_iff {t : Tree} {r : Reference} : Refers t r ↔ t.ownReference? = some r := by
  constructor
  · rintro (_ | _) <;> rfl
  · intro h
    unfold ownReference? at h
    split at h
    · rename_i source himport
      cases h
      exact refers_of_importSource? himport
    · obtain ⟨request, hrequire, rfl⟩ := Option.map_eq_some_iff.mp h
      exact refers_of_requireSource? hrequire

/-! ## 2. The ways to what refers to something -/

/-- The reference at the end of a way. -/
def referenceAt? (t : Tree) (way : List Nat) : Option Reference := (t.at? way).bind ownReference?

/-- The reference at the end of a way that starts at one of several trees. -/
def referenceIn? (ts : List Tree) : List Nat → Option Reference
  | [] => none
  | i :: way => ts[i]?.bind (referenceAt? · way)

theorem referenceAt?_eq_some_iff {t : Tree} {way : List Nat} {r : Reference} :
    t.referenceAt? way = some r ↔ ∃ u, t.at? way = some u ∧ Refers u r := by
  simp only [referenceAt?, Option.bind_eq_some_iff, refers_iff]

theorem referenceAt?_cons (label : Label) (span : Span) (parts : List Tree) (i : Nat)
    (way : List Nat) :
    (node label span parts).referenceAt? (i :: way) = referenceIn? parts (i :: way) := by
  simp only [referenceAt?, referenceIn?, at?, Tree.parts]
  cases parts[i]? <;> rfl

/-- The list holds what the ways lead to, in the order of the ways, each once and nothing else. -/
def Enumerates (found : List Nat → Option Reference) (rs : List Reference) : Prop :=
  ∃ ways : List (List Nat), ways.Pairwise (· < ·) ∧ (∀ way, way ∈ ways ↔ (found way).isSome) ∧
    ways.map found = rs.map some

/-- The way one tree further to the right. -/
def further : List Nat → List Nat
  | [] => []
  | i :: way => (i + 1) :: way

theorem further_lt_further {a b : List Nat} (h : a < b) (ha : a ≠ []) : further a < further b := by
  match a, b with
  | [], _ => exact absurd rfl ha
  | _ :: _, [] => cases h
  | i :: a, j :: b =>
    rcases List.cons_lt_cons_iff.mp h with hlt | ⟨rfl, hlt⟩
    · exact List.cons_lt_cons_iff.mpr (.inl (Nat.succ_lt_succ hlt))
    · exact List.cons_lt_cons_iff.mpr (.inr ⟨rfl, hlt⟩)

theorem mem_map_further {others : List (List Nat)} (hnonempty : [] ∉ others) (i : Nat)
    (way : List Nat) : i :: way ∈ others.map further ↔ ∃ j, i = j + 1 ∧ j :: way ∈ others := by
  constructor
  · intro h
    obtain ⟨_ | ⟨j, other⟩, hother, heq⟩ := List.mem_map.mp h
    · exact absurd hother hnonempty
    · obtain ⟨rfl, rfl⟩ := List.cons.inj heq
      exact ⟨j, rfl, hother⟩
  · rintro ⟨j, rfl, hother⟩
    exact List.mem_map.mpr ⟨_, hother, rfl⟩

theorem enumerates_nil : Enumerates (referenceIn? []) [] := by
  refine ⟨[], .nil, fun way => ?_, rfl⟩
  cases way <;> simp [referenceIn?]

/-- The ways into several trees are those into the first, and then those into the others. -/
theorem enumerates_cons {t : Tree} {ts : List Tree} {rs more : List Reference}
    (ht : Enumerates t.referenceAt? rs) (hts : Enumerates (referenceIn? ts) more) :
    Enumerates (referenceIn? (t :: ts)) (rs ++ more) := by
  obtain ⟨ways, hsorted, hmem, hfound⟩ := ht
  obtain ⟨others, hsorted', hmem', hfound'⟩ := hts
  have hnonempty : [] ∉ others := fun h => nomatch (hmem' []).mp h
  refine ⟨ways.map (0 :: ·) ++ others.map further, ?_, ?_, ?_⟩
  · rw [List.pairwise_append, List.pairwise_map, List.pairwise_map]
    refine ⟨hsorted.imp fun h => ?_, ?_, ?_⟩
    · exact List.cons_lt_cons_iff.mpr (.inr ⟨rfl, h⟩)
    · exact hsorted'.imp_of_mem fun ha _ h => further_lt_further h fun hnil => hnonempty (hnil ▸ ha)
    · intro a ha b hb
      obtain ⟨way, -, rfl⟩ := List.mem_map.mp ha
      obtain ⟨_ | ⟨i, other⟩, hother, rfl⟩ := List.mem_map.mp hb
      · exact absurd hother hnonempty
      · exact List.cons_lt_cons_iff.mpr (.inl (Nat.succ_pos i))
  · intro way
    rw [List.mem_append]
    match way with
    | [] =>
      have hfurther : ∀ other ∈ others, further other ≠ [] := by
        rintro (_ | _) hother
        · exact absurd hother hnonempty
        · simp [further]
      simpa [referenceIn?] using hfurther
    | 0 :: way =>
      rw [mem_map_further hnonempty]
      simpa [referenceIn?] using hmem way
    | (i + 1) :: way =>
      rw [mem_map_further hnonempty]
      simpa [referenceIn?] using hmem' (i :: way)
  · have hfirst : ways.map (fun way => referenceIn? (t :: ts) (0 :: way)) = rs.map some := hfound
    have hothers : others.map (fun way => referenceIn? (t :: ts) (further way)) = more.map some := by
      rw [← hfound']
      refine List.map_congr_left fun way hway => ?_
      match way, hway with
      | [], hway => exact absurd hway hnonempty
      | _ :: _, _ => rfl
    simp only [List.map_append, List.map_map, Function.comp_def, hfirst, hothers]

/-- The way to a node itself comes before all ways to its parts. -/
theorem enumerates_node {label : Label} {span : Span} {parts : List Tree} {rs : List Reference}
    (h : Enumerates (referenceIn? parts) rs) :
    Enumerates (node label span parts).referenceAt?
      ((node label span parts).ownReference?.toList ++ rs) := by
  obtain ⟨ways, hsorted, hmem, hfound⟩ := h
  have hnonempty : [] ∉ ways := fun h => nomatch (hmem []).mp h
  have hbelow : ∀ way ∈ ways, (node label span parts).referenceAt? way = referenceIn? parts way := by
    intro way hway
    match way, hway with
    | [], hway => exact absurd hway hnonempty
    | i :: way, _ => exact referenceAt?_cons ..
  have hfound' : ways.map (node label span parts).referenceAt? = rs.map some := by
    rw [← hfound]
    exact List.map_congr_left hbelow
  have hhere : (node label span parts).referenceAt? [] = (node label span parts).ownReference? := rfl
  cases hown : (node label span parts).ownReference? with
  | none =>
    refine ⟨ways, hsorted, fun way => ?_, by simpa using hfound'⟩
    match way with
    | [] => simp [hhere, hown, hnonempty]
    | i :: way => rw [hmem, referenceAt?_cons]
  | some r =>
    refine ⟨[] :: ways, ?_, fun way => ?_, by simp [hhere, hown, hfound']⟩
    · refine List.pairwise_cons.mpr ⟨fun way hway => ?_, hsorted⟩
      match way, hway with
      | [], hway => exact absurd hway hnonempty
      | i :: way, _ => exact List.nil_lt_cons ..
    · match way with
      | [] => simp [hhere, hown]
      | i :: way => simp [hmem, referenceAt?_cons]

/-- By induction on the tree, and for a node on the list of its parts. -/
theorem enumerates_references (t : Tree) : Enumerates t.referenceAt? t.references := by
  induction t using nodeInduction with
  | node label span parts ih =>
    rw [references]
    refine enumerates_node ?_
    induction parts with
    | nil => exact enumerates_nil
    | cons p ps ihp =>
      exact enumerates_cons (ih p (by simp)) (ihp fun q hq => ih q (by simp [hq]))

/-- **The references of a tree** are what the nodes of the tree refer to: the ways to these nodes, each once
and in reading order, match the references one to one. -/
theorem references_enumerated (t : Tree) :
    ∃ ways : List (List Nat), ways.Pairwise (· < ·) ∧
      (∀ way, way ∈ ways ↔ ∃ u r, t.at? way = some u ∧ Refers u r) ∧
      List.Forall₂ (fun way r => ∃ u, t.at? way = some u ∧ Refers u r) ways t.references := by
  obtain ⟨ways, hsorted, hmem, hfound⟩ := enumerates_references t
  refine ⟨ways, hsorted, fun way => ?_, ?_⟩
  · rw [hmem, Option.isSome_iff_exists, exists_comm]
    simp only [referenceAt?_eq_some_iff]
  · simp only [← referenceAt?_eq_some_iff]
    rw [← List.forall₂_eq_eq_eq, List.forall₂_map_left_iff, List.forall₂_map_right_iff] at hfound
    exact hfound

end PackageRefs.Script.Tree
