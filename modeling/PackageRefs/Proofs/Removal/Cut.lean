/-
# What a removal counts

The number that comes with a removal is a sum over the whole tree, of variables, of items of statement lists
and of calls.  Here it is told apart again.  A `Cut` is one thing that a removal does: the way to the node that
goes, and whether the node is a variable that is dropped, an item of a list that is dropped, or a call that
`void 0` takes the place of.

* `mem_cuts_iff` says which cuts a removal makes: one at each node that goes and lies in no other such node.
* `carryOut_cuts` says that the cuts are all that is done to the tree, but for declarations in statement lists
  that have no variables left.
* `length_cuts` says that the number is that of the cuts.

A cut is made for one import or one call, its `target`.

**The result** (`removal_accounted`): each cut has a target of its own, and of the matching imports and calls
that lie in no other cut each is the target of one cut, unless it is a stray import, which is not an item of a
statement list.

**Where an import strays.**  An import can be read as the whole body of an `if`, and is passed over there:
`Example.strayImport_uncounted`.
-/
import Mathlib.Data.List.Nodup
import PackageRefs.Proofs.Removal.Pass
import PackageRefs.Proofs.Removal.Structural

namespace PackageRefs.Script.Tree

variable {goes : String → Bool}

/-! ## 1. Ways and positions -/

/-- The node at the end of a way down, and how it stands in its parent. -/
def standing? : Position → Tree → List Nat → Option (Position × Tree)
  | pos, t, [] => some (pos, t)
  | pos, t, i :: way =>
    match t.parts[i]? with
    | some p => standing? (pos.below t.label t.parts.length) p way
    | none => none

@[simp] theorem standing?_nil (pos : Position) (t : Tree) : standing? pos t [] = some (pos, t) := rfl

theorem standing?_cons_of_some {pos : Position} {t p : Tree} {i : Nat} (h : t.parts[i]? = some p)
    (way : List Nat) :
    standing? pos t (i :: way) = standing? (pos.below t.label t.parts.length) p way := by
  rw [standing?, h]

theorem standing?_append (pos : Position) (t : Tree) (way rest : List Nat) :
    standing? pos t (way ++ rest) = (standing? pos t way).bind fun found => standing? found.1 found.2 rest := by
  induction way generalizing pos t with
  | nil => rfl
  | cons i way ih =>
    rw [List.cons_append, standing?, standing?]
    cases t.parts[i]? with
    | none => rfl
    | some p => exact ih _ p

/-! ## 2. Cuts -/

/-- What is done to a node that goes. -/
inductive CutKind where
  /-- It is dropped from its declaration. -/
  | declarator
  /-- It is dropped from its statement list. -/
  | statement
  /-- `void 0` takes its place. -/
  | call
  deriving DecidableEq

/-- What stands in the place of a node that goes. -/
def CutKind.leaves (span : Span) : CutKind → List Tree
  | declarator | statement => []
  | call => [voidZero span]

/-- What is done to the node where it stands, if it goes. -/
def cutKind? (goes : String → Bool) : Position → Tree → Option CutKind
  | .listed, t =>
    if t.statementSource?.any goes then some .statement else if t.isTarget goes then some .call else none
  | .declared, t =>
    if t.declaratorSource?.any goes then some .declarator else if t.isTarget goes then some .call else none
  | .chained, _ => none
  | .elsewhere, t => if t.isTarget goes then some .call else none

/-- One thing that a removal does. -/
@[ext]
structure Cut where
  way : List Nat
  kind : CutKind
  deriving DecidableEq

/-- The cut seen from a node of which the tree is a part. -/
def Cut.under (i : Nat) (c : Cut) : Cut := ⟨i :: c.way, c.kind⟩

mutual

/-- The cuts that a removal makes in a node. -/
def cuts (goes : String → Bool) : Position → Tree → List Cut
  | pos, node label span parts =>
    match (node label span parts).cutKind? goes pos with
    | some kind => [⟨[], kind⟩]
    | none => cutsIn goes (pos.below label parts.length) 0 parts

/-- The cuts that it makes in several nodes, the first of which has the given number. -/
def cutsIn (goes : String → Bool) : Position → Nat → List Tree → List Cut
  | _, _, [] => []
  | pos, i, t :: ts => (cuts goes pos t).map (Cut.under i) ++ cutsIn goes pos (i + 1) ts

end

/-- The node at the end of the way goes as the cut says, and none before it goes. -/
structure IsCut (goes : String → Bool) (pos : Position) (t : Tree) (c : Cut) : Prop where
  cut : ∃ pos' u, standing? pos t c.way = some (pos', u) ∧ u.cutKind? goes pos' = some c.kind
  outermost : ∀ shorter, shorter <+: c.way → shorter ≠ c.way →
    ∀ pos' u, standing? pos t shorter = some (pos', u) → u.cutKind? goes pos' = none

/-- A node is cut if it is taken: it is dropped if it names a source as a whole, and becomes `void 0`
otherwise. -/
theorem cutKind?_eq (goes : String → Bool) (pos : Position) (t : Tree) :
    t.cutKind? goes pos =
      if t.taken goes pos then
        some (if (wholeSource? pos t).any goes then if pos = .listed then .statement else .declarator
          else .call)
      else none := by
  cases pos with
  | chained => rfl
  | elsewhere => simp [cutKind?, taken, wholeSource?]
  | listed =>
    rw [cutKind?, taken, wholeSource?]
    cases t.statementSource?.any goes <;> simp
  | declared =>
    rw [cutKind?, taken, wholeSource?]
    cases t.declaratorSource?.any goes <;> simp

theorem cutKind?_eq_none_iff {pos : Position} {t : Tree} :
    t.cutKind? goes pos = none ↔ t.taken goes pos = false := by
  simp [cutKind?_eq]

theorem edit_of_cutKind? {pos : Position} {t : Tree} {kind : CutKind} (h : t.cutKind? goes pos = some kind) :
    edit goes pos t = (kind.leaves t.span, 1) := by
  rw [cutKind?_eq] at h
  split at h
  · rename_i htaken
    cases h
    rw [edit_of_taken htaken, replacement_eq]
    cases (wholeSource? pos t).any goes with
    | true => by_cases hpos : pos = .listed <;> simp [hpos, CutKind.leaves]
    | false => rfl
  · cases h

theorem cuts_of_some {pos : Position} {t : Tree} {kind : CutKind} (h : t.cutKind? goes pos = some kind) :
    cuts goes pos t = [⟨[], kind⟩] := by
  obtain ⟨label, span, parts⟩ := t
  rw [cuts, h]

theorem cuts_of_none {pos : Position} {t : Tree} (h : t.cutKind? goes pos = none) :
    cuts goes pos t = cutsIn goes (pos.below t.label t.parts.length) 0 t.parts := by
  obtain ⟨label, span, parts⟩ := t
  rw [cuts, h]
  rfl

theorem mem_cutsIn {pos : Position} {i : Nat} {ts : List Tree} {c : Cut} :
    c ∈ cutsIn goes pos i ts ↔ ∃ j p c', ts[j]? = some p ∧ c' ∈ cuts goes pos p ∧ c = c'.under (i + j) := by
  induction ts generalizing i with
  | nil => simp [cutsIn]
  | cons t ts ih =>
    rw [cutsIn, List.mem_append, ih]
    constructor
    · rintro (h | ⟨j, p, c', hp, hc', rfl⟩)
      · obtain ⟨c', hc', rfl⟩ := List.mem_map.mp h
        exact ⟨0, t, c', rfl, hc', rfl⟩
      · exact ⟨j + 1, p, c', hp, hc', by rw [Nat.add_assoc, Nat.add_comm 1]⟩
    · rintro ⟨_ | j, p, c', hp, hc', rfl⟩
      · obtain rfl : t = p := Option.some.inj hp
        exact .inl (List.mem_map.mpr ⟨c', hc', rfl⟩)
      · exact .inr ⟨j, p, c', hp, hc', by rw [Nat.add_assoc, Nat.add_comm 1]⟩

theorem isCut_nil {pos : Position} {t : Tree} {kind : CutKind} :
    IsCut goes pos t ⟨[], kind⟩ ↔ t.cutKind? goes pos = some kind := by
  constructor
  · rintro ⟨⟨pos', u, h, hu⟩, -⟩
    cases h
    exact hu
  · intro h
    exact ⟨⟨pos, t, rfl, h⟩, fun shorter hprefix hne => absurd (List.prefix_nil.mp hprefix) hne⟩

theorem isCut_cons {pos : Position} {t : Tree} {i : Nat} {way : List Nat} {kind : CutKind} :
    IsCut goes pos t ⟨i :: way, kind⟩ ↔ t.cutKind? goes pos = none ∧
      ∃ p, t.parts[i]? = some p ∧ IsCut goes (pos.below t.label t.parts.length) p ⟨way, kind⟩ := by
  constructor
  · rintro ⟨⟨pos', u, h, hu⟩, houter⟩
    refine ⟨houter [] (List.nil_prefix) (by simp) pos t rfl, ?_⟩
    cases hp : t.parts[i]? with
    | none => simp [standing?, hp] at h
    | some p =>
      rw [standing?_cons_of_some hp] at h
      refine ⟨p, rfl, ⟨pos', u, h, hu⟩, fun shorter hprefix hne pos'' v hv => ?_⟩
      refine houter (i :: shorter) (List.cons_prefix_cons.mpr ⟨rfl, hprefix⟩) (by simpa using hne) pos'' v ?_
      rw [standing?_cons_of_some hp, hv]
  · rintro ⟨hnone, p, hp, ⟨pos', u, h, hu⟩, houter⟩
    refine ⟨⟨pos', u, by rw [standing?_cons_of_some hp, h], hu⟩, fun shorter hprefix hne pos'' v hv => ?_⟩
    match shorter with
    | [] =>
      cases hv
      exact hnone
    | j :: shorter =>
      obtain ⟨rfl, hrest⟩ := List.cons_prefix_cons.mp hprefix
      rw [standing?_cons_of_some hp] at hv
      exact houter shorter hrest (by simpa using hne) pos'' v hv

/-- **The cuts of a removal** are made at the nodes that go and lie in no other node that goes. -/
theorem mem_cuts_iff {pos : Position} {t : Tree} {c : Cut} : c ∈ cuts goes pos t ↔ IsCut goes pos t c := by
  induction t using nodeInduction generalizing pos c with
  | node label span parts ih =>
    obtain ⟨way, kind⟩ := c
    cases hkind : (node label span parts).cutKind? goes pos with
    | some own =>
      rw [cuts_of_some hkind, List.mem_singleton, Cut.mk.injEq]
      match way with
      | [] => simp [isCut_nil, hkind, eq_comm]
      | i :: way => simp [isCut_cons, hkind]
    | none =>
      rw [cuts_of_none hkind, mem_cutsIn]
      match way with
      | [] => simp [isCut_nil, hkind, Cut.under]
      | i :: way =>
        rw [isCut_cons, and_iff_right hkind]
        constructor
        · rintro ⟨j, p, ⟨way', kind'⟩, hp, hmem, heq⟩
          simp only [Cut.under, Nat.zero_add, Cut.mk.injEq, List.cons.injEq] at heq
          obtain ⟨⟨rfl, rfl⟩, rfl⟩ := heq
          exact ⟨p, hp, (ih p (List.mem_of_getElem? hp)).mp hmem⟩
        · rintro ⟨p, hp, hcut⟩
          exact ⟨i, p, ⟨way, kind⟩, hp, (ih p (List.mem_of_getElem? hp)).mpr hcut, by simp [Cut.under]⟩

/-- Of two cuts none lies in the other. -/
theorem eq_of_prefix_way {pos : Position} {t : Tree} {c c' : Cut} (hc : c ∈ cuts goes pos t)
    (hc' : c' ∈ cuts goes pos t) (h : c.way <+: c'.way) : c = c' := by
  obtain ⟨⟨pos', u, hu, hkind⟩, -⟩ := mem_cuts_iff.mp hc
  obtain ⟨⟨pos'', v, hv, hkind'⟩, houter⟩ := mem_cuts_iff.mp hc'
  by_cases hway : c.way = c'.way
  · rw [← hway, hu] at hv
    cases hv
    rw [hkind] at hkind'
    obtain ⟨way, kind⟩ := c
    obtain ⟨way', kind'⟩ := c'
    exact Cut.mk.injEq .. ▸ ⟨hway, Option.some.inj hkind'⟩
  · have hnone := houter c.way h hway pos' u hu
    rw [hkind] at hnone
    cases hnone

/-- So a node lies in one cut at most. -/
theorem eq_of_prefix_both {pos : Position} {t : Tree} {c c' : Cut} {way : List Nat} (hc : c ∈ cuts goes pos t)
    (hc' : c' ∈ cuts goes pos t) (h : c.way <+: way) (h' : c'.way <+: way) : c = c' := by
  rcases List.prefix_or_prefix_of_prefix h h' with hle | hle
  · exact eq_of_prefix_way hc hc' hle
  · exact (eq_of_prefix_way hc' hc hle).symm

/-- A node that goes is cut, or lies in a node that is. -/
theorem exists_cut_of_cutKind? {pos pos' : Position} {t u : Tree} {way : List Nat}
    (h : standing? pos t way = some (pos', u)) (hu : u.cutKind? goes pos' ≠ none) :
    ∃ c ∈ cuts goes pos t, c.way <+: way := by
  induction way generalizing pos t with
  | nil =>
    cases h
    obtain ⟨kind, hkind⟩ := Option.ne_none_iff_exists'.mp hu
    exact ⟨⟨[], kind⟩, mem_cuts_iff.mpr (isCut_nil.mpr hkind), List.prefix_refl _⟩
  | cons i way ih =>
    cases hkind : t.cutKind? goes pos with
    | some kind => exact ⟨⟨[], kind⟩, mem_cuts_iff.mpr (isCut_nil.mpr hkind), List.nil_prefix⟩
    | none =>
      cases hp : t.parts[i]? with
      | none => simp [standing?, hp] at h
      | some p =>
        rw [standing?_cons_of_some hp] at h
        obtain ⟨c, hc, hprefix⟩ := ih h
        exact ⟨c.under i, mem_cuts_iff.mpr (isCut_cons.mpr ⟨hkind, p, hp, mem_cuts_iff.mp hc⟩),
          List.cons_prefix_cons.mpr ⟨rfl, hprefix⟩⟩

theorem under_injective (i : Nat) : Function.Injective (Cut.under i) := by
  intro c c' h
  simpa [Cut.under, Cut.ext_iff] using h

theorem nodup_cutsIn {pos : Position} {ts : List Tree} (h : ∀ t ∈ ts, (cuts goes pos t).Nodup) (i : Nat) :
    (cutsIn goes pos i ts).Nodup := by
  induction ts generalizing i with
  | nil => exact List.nodup_nil
  | cons t ts ih =>
    rw [cutsIn, List.nodup_append]
    refine ⟨(h t List.mem_cons_self).map (under_injective i),
      ih (fun u hu => h u (List.mem_cons_of_mem _ hu)) (i + 1), ?_⟩
    -- the ways into the first node and those into the others start differently
    intro c hc c' hc' heq
    obtain ⟨d, -, rfl⟩ := List.mem_map.mp hc
    obtain ⟨j, -, d', -, -, rfl⟩ := mem_cutsIn.mp hc'
    have hfirst := (List.cons.inj (congrArg Cut.way heq)).1
    omega

/-- No cut is made twice. -/
theorem nodup_cuts (goes : String → Bool) (pos : Position) (t : Tree) : (cuts goes pos t).Nodup := by
  induction t using nodeInduction generalizing pos with
  | node label span parts ih =>
    cases hkind : (node label span parts).cutKind? goes pos with
    | some kind =>
      rw [cuts_of_some hkind]
      exact List.nodup_singleton _
    | none =>
      rw [cuts_of_none hkind]
      exact nodup_cutsIn (fun p hp => ih p hp _) 0

/-! ## 3. The tree and the number -/

/-- An edit of a node that is not cut. -/
theorem edit_of_not_cut {pos : Position} {label : Label} {span : Span} {parts : List Tree}
    (h : (node label span parts).cutKind? goes pos = none) :
    edit goes pos (node label span parts) =
      let edited := editAll goes (pos.below label parts.length) parts
      (if isListedDeclaration pos label && edited.1.isEmpty then []
        else [node label span edited.1], edited.2) :=
  edit_node (cutKind?_eq_none_iff.mp h)

theorem length_cutsIn {pos : Position} {ts : List Tree}
    (h : ∀ t ∈ ts, (cuts goes pos t).length = (edit goes pos t).2) (i : Nat) :
    (cutsIn goes pos i ts).length = (editAll goes pos ts).2 := by
  induction ts generalizing i with
  | nil => rfl
  | cons t ts ih =>
    rw [cutsIn, List.length_append, List.length_map, h t List.mem_cons_self,
      ih fun u hu => h u (List.mem_cons_of_mem _ hu)]
    rfl

/-- **The number** that comes with an edit is that of the cuts. -/
theorem length_cuts (goes : String → Bool) (pos : Position) (t : Tree) :
    (cuts goes pos t).length = (edit goes pos t).2 := by
  induction t using nodeInduction generalizing pos with
  | node label span parts ih =>
    cases hkind : (node label span parts).cutKind? goes pos with
    | some kind => simp [cuts_of_some hkind, edit_of_cutKind? hkind]
    | none =>
      rw [cuts_of_none hkind, edit_of_not_cut hkind]
      exact length_cutsIn (fun p hp => ih p hp _) 0

mutual

/-- Does to a node what a plan says, which gives for every way down what is done to the node at its end.  A
declaration in a statement list that has no variables left goes too. -/
def carryOut (plan : List Nat → Option CutKind) : Position → Tree → List Tree
  | pos, node label span parts =>
    match plan [] with
    | some kind => kind.leaves span
    | none =>
      let kept := carryOutIn plan (pos.below label parts.length) 0 parts
      if isListedDeclaration pos label && kept.isEmpty then [] else [node label span kept]

/-- Does the same to several nodes, the first of which has the given number. -/
def carryOutIn (plan : List Nat → Option CutKind) : Position → Nat → List Tree → List Tree
  | _, _, [] => []
  | pos, i, t :: ts => carryOut (fun way => plan (i :: way)) pos t ++ carryOutIn plan pos (i + 1) ts

end

/-- The plan of some cuts. -/
def planOf (cs : List Cut) (way : List Nat) : Option CutKind := (cs.find? (·.way = way)).map Cut.kind

theorem planOf_cuts {pos : Position} {t : Tree} {way : List Nat} {kind : CutKind} :
    planOf (cuts goes pos t) way = some kind ↔ IsCut goes pos t ⟨way, kind⟩ := by
  rw [← mem_cuts_iff, planOf, Option.map_eq_some_iff]
  constructor
  · rintro ⟨c, hfind, rfl⟩
    obtain rfl : c.way = way := by simpa using List.find?_some hfind
    exact List.mem_of_find?_eq_some hfind
  · intro hmem
    cases hfind : (cuts goes pos t).find? (·.way = way) with
    | none => exact absurd (List.find?_eq_none.mp hfind _ hmem) (by simp)
    | some c =>
      have hway : c.way = way := by simpa using List.find?_some hfind
      have heq := eq_of_prefix_way (List.mem_of_find?_eq_some hfind) hmem (hway ▸ List.prefix_refl _)
      exact ⟨c, rfl, by rw [heq]⟩

theorem carryOutIn_of {plan : List Nat → Option CutKind} {pos : Position} {i : Nat} {ts : List Tree}
    (h : ∀ j p, ts[j]? = some p → carryOut (fun way => plan ((i + j) :: way)) pos p = (edit goes pos p).1) :
    carryOutIn plan pos i ts = (editAll goes pos ts).1 := by
  induction ts generalizing i with
  | nil => rfl
  | cons t ts ih =>
    rw [carryOutIn, editAll, show carryOut (fun way => plan (i :: way)) pos t = _ from h 0 t rfl]
    refine congrArg _ (ih fun j p hp => ?_)
    rw [Nat.add_assoc, Nat.add_comm 1]
    exact h (j + 1) p hp

/-- **The tree** that an edit leaves is what a plan with its cuts, and nothing else, leaves. -/
theorem carryOut_of_plan {plan : List Nat → Option CutKind} {pos : Position} {t : Tree}
    (h : ∀ way kind, plan way = some kind ↔ IsCut goes pos t ⟨way, kind⟩) :
    carryOut plan pos t = (edit goes pos t).1 := by
  induction t using nodeInduction generalizing pos plan with
  | node label span parts ih =>
    have hhere : plan [] = (node label span parts).cutKind? goes pos :=
      Option.ext fun kind => (h [] kind).trans isCut_nil
    rw [carryOut, hhere]
    cases hkind : (node label span parts).cutKind? goes pos with
    | some kind => rw [edit_of_cutKind? hkind]; rfl
    | none =>
      have hparts : carryOutIn plan (pos.below label parts.length) 0 parts =
          (editAll goes (pos.below label parts.length) parts).1 := by
        refine carryOutIn_of fun j p hp => ih p (List.mem_of_getElem? hp) fun way kind => ?_
        have hp : (node label span parts).parts[j]? = some p := hp
        rw [Nat.zero_add, h, isCut_cons, and_iff_right hkind, hp]
        simp [Tree.label, Tree.parts]
      rw [edit_of_not_cut hkind, hparts]

theorem carryOut_cuts (goes : String → Bool) (t : Tree) :
    carryOut (planOf (cuts goes .elsewhere t)) .elsewhere t = [(remove goes t).1] := by
  rw [carryOut_of_plan fun way kind => planOf_cuts, edit_elsewhere]

/-- How many cuts are of a kind. -/
def countCuts (kind : CutKind) (cs : List Cut) : Nat := cs.countP (·.kind = kind)

theorem length_eq_countCuts (cs : List Cut) :
    cs.length = countCuts .declarator cs + countCuts .statement cs + countCuts .call cs := by
  unfold countCuts
  induction cs with
  | nil => rfl
  | cons c cs ih =>
    simp only [List.length_cons, List.countP_cons, ih]
    cases c.kind <;> simp <;> omega

/-! ## 4. Targets -/

/-- The node is an import declaration, or a call where an expression can stand, that matches. -/
def isMatch (goes : String → Bool) (pos : Position) (t : Tree) : Bool :=
  t.importSource?.any goes || (decide (pos ≠ .chained) && t.requireSource?.any goes)

/-- At the end of the way there is an import or a call that matches. -/
def MatchAt (goes : String → Bool) (pos : Position) (t : Tree) (way : List Nat) : Prop :=
  ∃ pos' u, standing? pos t way = some (pos', u) ∧ u.isMatch goes pos' = true

/-- At the end of the way there is an import that is not an item of a statement list. -/
def StrayImportAt (pos : Position) (t : Tree) (way : List Nat) : Prop :=
  ∃ pos' u, standing? pos t way = some (pos', u) ∧ pos' ≠ .listed ∧ u.importSource?.isSome

/-- The way from an expression through the parentheses around it. -/
def innerWay : Tree → List Nat
  | node .parenthesized _ [inner] => 0 :: inner.innerWay
  | _ => []

/-- The way from a node that is cut to the import or the call for which it is. -/
def CutKind.sourceWay : CutKind → Tree → List Nat
  | call, t => t.innerWay
  | statement, node .expressionStatement _ [e] => 0 :: e.innerWay
  | declarator, node (.declarator _) _ [_, value] => 1 :: value.innerWay
  | _, _ => []

/-- The way to the import or the call for which a cut is made. -/
def Cut.target (pos : Position) (t : Tree) (c : Cut) : List Nat :=
  c.way ++ match standing? pos t c.way with
    | some (_, u) => c.kind.sourceWay u
    | none => []

/-- At the end of the way there is what a cut can be made for. -/
def TargetAt (goes : String → Bool) (pos : Position) (t : Tree) (way : List Nat) : Prop :=
  MatchAt goes pos t way ∧ ¬StrayImportAt pos t way

theorem targetAt_iff {pos pos' : Position} {t u : Tree} {way : List Nat}
    (h : standing? pos t way = some (pos', u)) :
    TargetAt goes pos t way ↔ u.isMatch goes pos' = true ∧ ¬(pos' ≠ .listed ∧ u.importSource?.isSome) := by
  simp [TargetAt, MatchAt, StrayImportAt, h]

theorem targetAt_append {pos pos' : Position} {t u : Tree} {way : List Nat}
    (h : standing? pos t way = some (pos', u)) (rest : List Nat) :
    TargetAt goes pos t (way ++ rest) ↔ TargetAt goes pos' u rest := by
  simp [TargetAt, MatchAt, StrayImportAt, standing?_append, h]

theorem targetAt_cons {pos : Position} {t p : Tree} {i : Nat} (h : t.parts[i]? = some p) (way : List Nat) :
    TargetAt goes pos t (i :: way) ↔ TargetAt goes (pos.below t.label t.parts.length) p way :=
  targetAt_append (standing?_cons_of_some h []) way

/-- A call of `require`, in parentheses or without, is where the way through them leads. -/
theorem targetAt_innerWay {pos : Position} {t : Tree} (h : t.isTarget goes = true) (hpos : pos ≠ .chained) :
    TargetAt goes pos t t.innerWay := by
  induction t using nodeInduction generalizing pos with
  | node label span parts ih =>
    rcases isTarget_cases h with hrequire | ⟨_, inner, heq, hinner⟩
    · have hway : (node label span parts).innerWay = [] := by
        cases label <;> first | rfl | cases hrequire
      have himport : (node label span parts).importSource? = none :=
        importSource?_eq_none (Option.isSome_of_any hrequire)
      rw [hway, targetAt_iff rfl, isMatch, himport]
      simp [hpos, hrequire]
    · obtain ⟨rfl, rfl, rfl⟩ : label = .parenthesized ∧ _ ∧ parts = [inner] := by simpa using heq
      have hbelow : pos.below .parenthesized 1 ≠ .chained := by cases pos <;> simp [Position.below]
      exact (targetAt_cons rfl _).mpr (ih inner (List.mem_singleton_self _) hinner hbelow)

/-- A node that is cut is cut for what its way to the source leads to. -/
theorem targetAt_sourceWay {pos : Position} {t : Tree} {kind : CutKind} (h : t.cutKind? goes pos = some kind) :
    TargetAt goes pos t (kind.sourceWay t) := by
  cases pos with
  | chained => cases h
  | elsewhere =>
    obtain ⟨htarget, rfl⟩ : t.isTarget goes = true ∧ .call = kind := by simpa [cutKind?] using h
    exact targetAt_innerWay htarget (by simp)
  | listed =>
    rw [cutKind?] at h
    split at h
    · rename_i hsource
      cases h
      rcases statementSource?_any hsource with ⟨span, e, rfl, he⟩ | himport
      · exact (targetAt_cons rfl _).mpr (targetAt_innerWay he (by simp [Tree.label, Position.below]))
      · have hway : CutKind.statement.sourceWay t = [] := by
          obtain ⟨label, span, parts⟩ := t
          cases label <;> first | rfl | cases himport
        rw [hway, targetAt_iff rfl, isMatch, himport]
        simp
    · obtain ⟨htarget, rfl⟩ : t.isTarget goes = true ∧ .call = kind := by simpa using h
      exact targetAt_innerWay htarget (by simp)
  | declared =>
    rw [cutKind?] at h
    split at h
    · rename_i hsource
      cases h
      obtain ⟨definite, span, pattern, value, rfl, hvalue⟩ := declaratorSource?_any hsource
      exact (targetAt_cons rfl _).mpr (targetAt_innerWay hvalue (by simp [Tree.label, Position.below]))
    · obtain ⟨htarget, rfl⟩ : t.isTarget goes = true ∧ .call = kind := by simpa using h
      exact targetAt_innerWay htarget (by simp)

/-- **A cut has a target** that matches: an import in a statement list, or a call where an expression can
stand. -/
theorem targetAt_target {pos : Position} {t : Tree} {c : Cut} (h : c ∈ cuts goes pos t) :
    TargetAt goes pos t (c.target pos t) := by
  obtain ⟨⟨pos', u, hu, hkind⟩, -⟩ := mem_cuts_iff.mp h
  rw [Cut.target, hu, targetAt_append hu]
  exact targetAt_sourceWay hkind

theorem way_prefix_target (pos : Position) (t : Tree) (c : Cut) : c.way <+: c.target pos t :=
  List.prefix_append ..

/-- What a cut can be made for goes where it stands. -/
theorem cutKind?_ne_none_of_targetAt {pos : Position} {t : Tree} (h : TargetAt goes pos t []) :
    t.cutKind? goes pos ≠ none := by
  rw [targetAt_iff rfl, isMatch, Bool.or_eq_true, Bool.and_eq_true, decide_eq_true_eq] at h
  obtain ⟨himport | ⟨hpos, hrequire⟩, hstray⟩ := h
  · have hsome : t.importSource?.isSome := Option.isSome_of_any himport
    have hlisted : pos = .listed := by
      by_contra hne
      exact hstray ⟨hne, hsome⟩
    rw [ne_eq, cutKind?_eq_none_iff, taken_of_imports hsome, himport, hlisted]
    simp
  · rw [ne_eq, cutKind?_eq_none_iff, taken_of_requires (Option.isSome_of_any hrequire), hrequire]
    simp [hpos]

/-- A match lies in a cut, unless it is a stray import. -/
theorem exists_cut_of_targetAt {pos : Position} {t : Tree} {way : List Nat} (h : TargetAt goes pos t way) :
    ∃ c ∈ cuts goes pos t, c.way <+: way := by
  obtain ⟨⟨pos', u, hu, -⟩, -⟩ := id h
  have hhere : TargetAt goes pos' u [] := by
    rwa [← targetAt_append hu, List.append_nil]
  exact exists_cut_of_cutKind? hu (cutKind?_ne_none_of_targetAt hhere)

/-- **A target is that of one cut**: of the matches that lie in no other cut, all but the stray imports are. -/
theorem existsUnique_cut_iff {pos : Position} {t : Tree} {way : List Nat} (h : MatchAt goes pos t way)
    (hlone : ∀ c ∈ cuts goes pos t, c.way <+: way → c.target pos t = way) :
    (∃! c, c ∈ cuts goes pos t ∧ c.target pos t = way) ↔ ¬StrayImportAt pos t way := by
  constructor
  · rintro ⟨c, ⟨hc, rfl⟩, -⟩
    exact (targetAt_target hc).2
  · intro hstray
    obtain ⟨c, hc, hprefix⟩ := exists_cut_of_targetAt ⟨h, hstray⟩
    refine ⟨c, ⟨hc, hlone c hc hprefix⟩, ?_⟩
    rintro c' ⟨hc', rfl⟩
    exact eq_of_prefix_both hc' hc (way_prefix_target ..) hprefix

/-! ## 5. Trees that stay as they are -/

/-- Where nothing is counted nothing is changed, as long as no declaration was without variables before. -/
theorem edit_of_count_eq_zero {pos : Position} {t : Tree} (h : t.anyNode isEmptyDeclaration = false)
    (hcount : (edit goes pos t).2 = 0) : edit goes pos t = ([t], 0) := by
  induction t using nodeInduction generalizing pos with
  | node label span parts ih =>
    have hnode := Bool.eq_false_iff.mp h
    rw [ne_eq, anyNode_node, not_or] at hnode
    obtain ⟨hown, hparts⟩ := hnode
    cases hkind : (node label span parts).cutKind? goes pos with
    | some kind =>
      rw [edit_of_cutKind? hkind] at hcount
      cases hcount
    | none =>
      rw [edit_of_not_cut hkind] at hcount ⊢
      have hzero : ∀ p ∈ parts, (edit goes (pos.below label parts.length) p).2 = 0 := by
        intro p hp
        by_contra hne
        exact Nat.lt_irrefl 0 (hcount ▸ editAll_count_pos.mpr ⟨p, hp, Nat.pos_of_ne_zero hne⟩)
      have hall : editAll goes (pos.below label parts.length) parts = (parts, 0) :=
        editAll_of_forall fun p hp =>
          ih p hp (Bool.eq_false_iff.mpr fun hempty => hparts ⟨p, hp, hempty⟩) (hzero p hp)
      rw [hall]
      dsimp only
      rw [if_neg]
      intro hempty
      obtain ⟨hlabel, hnil⟩ := Bool.and_eq_true_iff.mp hempty
      obtain ⟨-, kind, isDeclare, rfl⟩ := isListedDeclaration_eq_true hlabel
      exact hown hnil

theorem remove_count_eq_zero_iff {t : Tree} (h : t.anyNode isEmptyDeclaration = false) :
    (remove goes t).2 = 0 ↔ (remove goes t).1 = t := by
  constructor
  · intro hcount
    have hedit := @edit_of_count_eq_zero goes .elsewhere t h (by rwa [edit_elsewhere])
    rw [edit_elsewhere] at hedit
    exact List.singleton_inj.mp (congrArg Prod.fst hedit)
  · intro hsame
    have htwice := congrArg Prod.snd (remove_remove goes t)
    rwa [hsame] at htwice

/-! ## 6. The account of a removal -/

/-- What the number that comes with a removal stands for. -/
structure RemovalAccount (goes : String → Bool) (t : Tree) : Prop where
  /-- The cuts are those at the nodes that go and lie in no other node that goes, each once. -/
  made : (cuts goes .elsewhere t).Nodup ∧ ∀ c, c ∈ cuts goes .elsewhere t ↔ IsCut goes .elsewhere t c
  /-- They are all that is done to the tree.  A declaration in a statement list that has no variables left is
  dropped with them, without a cut of its own. -/
  tree : [(remove goes t).1] = carryOut (planOf (cuts goes .elsewhere t)) .elsewhere t
  /-- The number is that of the variables and the items that are dropped and of the calls that are replaced. -/
  count : (remove goes t).2 = countCuts .declarator (cuts goes .elsewhere t) +
    countCuts .statement (cuts goes .elsewhere t) + countCuts .call (cuts goes .elsewhere t)
  /-- A match that lies in no cut but its own is the target of one cut, unless it is a stray import. -/
  covered : ∀ way, MatchAt goes .elsewhere t way →
    (∀ c ∈ cuts goes .elsewhere t, c.way <+: way → c.target .elsewhere t = way) →
    ((∃! c, c ∈ cuts goes .elsewhere t ∧ c.target .elsewhere t = way) ↔ ¬StrayImportAt .elsewhere t way)
  /-- Every cut has a target that matches and lies in no other cut. -/
  target : ∀ c ∈ cuts goes .elsewhere t, MatchAt goes .elsewhere t (c.target .elsewhere t) ∧
    ∀ c' ∈ cuts goes .elsewhere t, c'.way <+: c.target .elsewhere t → c' = c
  /-- A statement list is edited as in three passes, and no subtraction there goes below zero: what the list becomes
  shorter by are matching items, which are counted, and emptied declarations, whose variables were. -/
  lists : ∀ ts : List Tree,
    let declared := ts.map (withoutVariables goes)
    let kept := declared.filter (isRetained goes)
    let emptied := declared.countP isEmptyDeclaration
    kept.length ≤ declared.length ∧ emptied ≤ declared.length - kept.length ∧
      removeFromStatements goes ts =
        ((removeFromParts goes kept).1,
          (ts.map (variablesDropped goes)).sum + (declared.length - kept.length - emptied) +
            (removeFromParts goes kept).2)
  /-- The number is zero exactly if the tree is as it was. -/
  unchanged : (remove goes t).2 = 0 ↔ (remove goes t).1 = t

/-- **The account of a removal** from a tree without empty declarations. -/
theorem removal_accounted {t : Tree} (h : t.anyNode isEmptyDeclaration = false) (goes : String → Bool) :
    RemovalAccount goes t where
  made := ⟨nodup_cuts goes .elsewhere t, fun _ => mem_cuts_iff⟩
  tree := (carryOut_cuts goes t).symm
  count := by rw [← length_eq_countCuts, length_cuts, edit_elsewhere]
  covered _ hmatch hlone := existsUnique_cut_iff hmatch hlone
  target c hc := ⟨(targetAt_target hc).1, fun _ hc' hprefix =>
    eq_of_prefix_both hc' hc hprefix (way_prefix_target ..)⟩
  lists := removeFromStatements_eq_passes goes
  unchanged := remove_count_eq_zero_iff h

namespace Example

/-- A script with an import, a variable and an argument that match. -/
def littered : Tree :=
  (parse (Dialect.ofPath "a.js") "import 'x'; const a = require('x'), b = 1; f(require('x'));").program

/-- Each of the three is cut in its own way. -/
theorem littered_accounted :
    littered.anyNode isEmptyDeclaration = false ∧ RemovalAccount (MatchMode.exact.test "x") littered ∧
      (cuts (MatchMode.exact.test "x") .elsewhere littered).map Cut.kind =
        [.statement, .declarator, .call] := by
  have hnone : littered.anyNode isEmptyDeclaration = false := by decide +kernel
  exact ⟨hnone, removal_accounted hnone _, by decide +kernel⟩

/-- An import as the whole body of an `if` matches and lies in no cut, and no cut is made for it: nothing is
counted, and the script is left as it is. -/
theorem strayImport_uncounted :
    let goes := MatchMode.exact.test "a"
    let t := (parse (Dialect.ofPath "a.js") "if (x) import 'a';").program
    removeStructurally "a.js" "if (x) import 'a';" "a" .exact = .unchanged ∧
      t.anyNode isEmptyDeclaration = false ∧
      ¬∀ way, MatchAt goes .elsewhere t way →
        (∀ c ∈ cuts goes .elsewhere t, c.way <+: way → c.target .elsewhere t = way) →
        ∃! c, c ∈ cuts goes .elsewhere t ∧ c.target .elsewhere t = way := by
  intro goes t
  have hnone : cuts goes .elsewhere t = [] := by decide +kernel
  have hmatch : (standing? .elsewhere t [1, 0, 1]).any (fun found => found.2.isMatch goes found.1) = true := by
    decide +kernel
  refine ⟨by decide +kernel, by decide +kernel, fun hcovered => ?_⟩
  obtain ⟨⟨pos, u⟩, hu, hown⟩ := (Option.any_eq_true ..).mp hmatch
  obtain ⟨c, ⟨hc, -⟩, -⟩ := hcovered [1, 0, 1] ⟨pos, u, hu, hown⟩ (by simp [hnone])
  simp [hnone] at hc

end Example

end PackageRefs.Script.Tree
