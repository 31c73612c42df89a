/-
# What removal reaches

Removal goes down a tree until it comes to a node that goes, and does not look inside that one.
`Reaches` is the relation between a node and the nodes below it that are looked at, each with the way
it stands in its parent.  Two kinds of nodes are of interest among them:

* those that are `taken` (`Exposes`), and
* those that make a reference which goes and are not taken (`Shelters`).  These are a call of `require`
  that is the whole of an optional chain, and an import that is not an item of a statement list
  (`sheltered_eq`).

**Main results.**  Something is removed exactly if the tree exposes something (`count_pos_iff`).  What
a tree mentions it exposes or shelters (`mentions_iff`); what the edited tree mentions the tree
sheltered (`mentions_edit_iff`).  The edited tree exposes nothing (`not_exposes_edit`), so removal done
twice is removal done once, as far as trees go.
-/
import PackageRefs.Proofs.Removal.Edit

namespace PackageRefs.Script.Tree

variable {goes : String → Bool}

/-! ## 1. The nodes that are looked at -/

/-- A walk from the first node, in its position, comes to the second in its position, and nothing
before it goes. -/
inductive Reaches (goes : String → Bool) : Position → Tree → Position → Tree → Prop
  | here (pos : Position) (t : Tree) : Reaches goes pos t pos t
  | part {pos pos' : Position} {label : Label} {span : Span} {parts : List Tree} {p t : Tree}
      (stays : (node label span parts).taken goes pos = false) (mem : p ∈ parts)
      (rest : Reaches goes (pos.below label parts.length) p pos' t) :
      Reaches goes pos (node label span parts) pos' t

/-- Removal looks at a node with the property. -/
def Meets (goes : String → Bool) (property : Position → Tree → Prop) (pos : Position) (t : Tree) :
    Prop :=
  ∃ pos' u, Reaches goes pos t pos' u ∧ property pos' u

/-- A property is met at the node itself or, if the node stays, in one of its parts. -/
theorem meets_node {property : Position → Tree → Prop} {pos : Position} {label : Label} {span : Span}
    {parts : List Tree} :
    Meets goes property pos (node label span parts) ↔
      property pos (node label span parts) ∨
        ((node label span parts).taken goes pos = false ∧
          ∃ p ∈ parts, Meets goes property (pos.below label parts.length) p) := by
  constructor
  · rintro ⟨pos', u, hreach, hu⟩
    cases hreach with
    | here => exact .inl hu
    | part stays mem rest => exact .inr ⟨stays, _, mem, pos', u, rest, hu⟩
  · rintro (h | ⟨stays, p, mem, pos', u, rest, hu⟩)
    · exact ⟨pos, _, .here .., h⟩
    · exact ⟨pos', u, .part stays mem rest, hu⟩

/-- Removal takes some node. -/
def Exposes (goes : String → Bool) : Position → Tree → Prop :=
  Meets goes fun pos t => t.taken goes pos = true

theorem exposes_node {pos : Position} {label : Label} {span : Span} {parts : List Tree} :
    Exposes goes pos (node label span parts) ↔
      (node label span parts).taken goes pos = true ∨
        ∃ p ∈ parts, Exposes goes (pos.below label parts.length) p := by
  unfold Exposes
  rw [meets_node]
  cases (node label span parts).taken goes pos <;> simp

/-- **What is counted.**  The number that comes with an edit is positive exactly if a node is taken. -/
theorem count_pos_iff (pos : Position) (t : Tree) :
    0 < (edit goes pos t).2 ↔ Exposes goes pos t := by
  induction t using nodeInduction generalizing pos with
  | node label span parts ih =>
    rw [exposes_node]
    cases ht : (node label span parts).taken goes pos with
    | true => simp [edit_of_taken ht]
    | false =>
      rw [edit_node ht, editAll_count_pos]
      simp only [Bool.false_eq_true, false_or]
      exact exists_congr fun p => and_congr_right fun hp => ih p hp _

/-! ## 2. References that are passed over -/

/-- The node makes a reference that goes, where removal does not take it: right inside an optional
chain, or as an import that is not an item of a statement list. -/
def sheltered (goes : String → Bool) : Position → Tree → Bool
  | .listed, _ => false
  | .chained, t => t.names goes
  | _, t => t.importSource?.any goes

theorem isTarget_of_requires {t : Tree} (h : t.requireSource?.any goes = true) :
    t.isTarget goes = true := by
  have hlabel : t.label ≠ .parenthesized := by
    obtain ⟨label, span, parts⟩ := t
    rintro rfl
    cases h
  rw [isTarget_of_ne hlabel, h]

/-- An import goes as an item of a statement list, and nowhere else. -/
theorem taken_of_imports {t : Tree} (h : t.importSource?.isSome) (pos : Position) :
    t.taken goes pos = (decide (pos = .listed) && t.importSource?.any goes) := by
  obtain ⟨label, span, parts⟩ := t
  cases label with
  | importDeclaration typeOnly phase =>
    have hrequired : (node (.importDeclaration typeOnly phase) span parts).requiredBy? = none :=
      requiredBy?_of_ne (by simp [label])
    cases pos <;> simp [taken, isTarget, hrequired, statementSource?, declaratorSource?]
  | _ => cases h

/-- A call goes everywhere but right inside an optional chain. -/
theorem taken_of_requires {t : Tree} (h : t.requireSource?.isSome) (pos : Position) :
    t.taken goes pos = (decide (pos ≠ .chained) && t.requireSource?.any goes) := by
  obtain ⟨label, span, parts⟩ := t
  cases label with
  | call isOptional isPure =>
    have htarget : (node (.call isOptional isPure) span parts).isTarget goes =
        (node (.call isOptional isPure) span parts).requireSource?.any goes :=
      isTarget_of_ne (by simp [label])
    cases pos <;> simp [taken, htarget, statementSource?, importSource?, declaratorSource?]
  | _ => cases h

/-- What makes a reference that goes is taken or sheltered, and not both. -/
theorem sheltered_eq (goes : String → Bool) (pos : Position) (t : Tree) :
    t.sheltered goes pos = (t.names goes && !t.taken goes pos) := by
  rw [names_eq]
  cases himport : t.importSource? with
  | some source =>
    have hrequire : t.requireSource? = none := by
      cases hrequire : t.requireSource? with
      | none => rfl
      | some _ => simp [importSource?_eq_none (t := t) (by simp [hrequire])] at himport
    rw [taken_of_imports (by simp [himport])]
    cases pos <;> simp [sheltered, names_eq, himport, hrequire]
  | none =>
    cases hrequire : t.requireSource?.any goes with
    | false => cases pos <;> simp [sheltered, names_eq, himport, hrequire]
    | true =>
      have htarget := isTarget_of_requires hrequire
      cases pos <;> simp [sheltered, names_eq, himport, hrequire, taken, htarget]

/-- Some reference that goes is passed over. -/
def Shelters (goes : String → Bool) : Position → Tree → Prop :=
  Meets goes fun pos t => t.sheltered goes pos = true

/-- A statement goes as a call of `require` or as an import. -/
theorem statementSource?_any {t : Tree} (h : t.statementSource?.any goes = true) :
    (∃ span e, t = node .expressionStatement span [e] ∧ e.isTarget goes = true) ∨
      t.importSource?.any goes = true := by
  unfold statementSource? at h
  split at h
  · exact .inl ⟨_, _, rfl, h⟩
  · exact .inr h

/-- A variable goes with its value. -/
theorem declaratorSource?_any {t : Tree} (h : t.declaratorSource?.any goes = true) :
    ∃ definite span pattern value, t = node (.declarator definite) span [pattern, value] ∧
      value.isTarget goes = true := by
  unfold declaratorSource? at h
  split at h
  · exact ⟨_, _, _, _, rfl, h⟩
  · cases h

/-- A node that goes mentions what goes. -/
theorem mentions_of_taken {pos : Position} {t : Tree} (h : t.taken goes pos = true) :
    Mentions goes t := by
  cases pos with
  | chained => cases h
  | elsewhere => exact mentions_of_isTarget h
  | listed =>
    rcases Bool.or_eq_true_iff.mp h with hsource | htarget
    · rcases statementSource?_any hsource with ⟨span, e, rfl, he⟩ | himport
      · exact mentions_node.mpr (.inr ⟨e, by simp, mentions_of_isTarget he⟩)
      · exact mentions_of_names (by simp [names_eq, himport])
    · exact mentions_of_isTarget htarget
  | declared =>
    rcases Bool.or_eq_true_iff.mp h with hsource | htarget
    · obtain ⟨definite, span, pattern, value, rfl, hvalue⟩ := declaratorSource?_any hsource
      exact mentions_node.mpr (.inr ⟨value, by simp, mentions_of_isTarget hvalue⟩)
    · exact mentions_of_isTarget htarget

/-- **Nothing else is mentioned.**  A tree mentions what it exposes and what it shelters. -/
theorem mentions_iff (pos : Position) (t : Tree) :
    Mentions goes t ↔ Exposes goes pos t ∨ Shelters goes pos t := by
  induction t using nodeInduction generalizing pos with
  | node label span parts ih =>
    unfold Shelters
    rw [mentions_node, exposes_node, meets_node, sheltered_eq]
    constructor
    · cases ht : (node label span parts).taken goes pos with
      | true => exact fun _ => .inl (.inl rfl)
      | false =>
        rintro (hnames | ⟨p, hp, hmentions⟩)
        · exact .inr (.inl (by simp [hnames]))
        · rcases (ih p hp _).mp hmentions with hexposes | hshelters
          · exact .inl (.inr ⟨p, hp, hexposes⟩)
          · exact .inr (.inr ⟨rfl, p, hp, hshelters⟩)
    · rintro ((htaken | ⟨p, hp, hexposes⟩) | (hsheltered | ⟨-, p, hp, hshelters⟩))
      · exact mentions_node.mp (mentions_of_taken htaken)
      · exact .inr ⟨p, hp, (ih p hp _).mpr (.inl hexposes)⟩
      · exact .inl (Bool.and_eq_true_iff.mp hsheltered).1
      · exact .inr ⟨p, hp, (ih p hp _).mpr (.inr hshelters)⟩

/-! ## 3. The edited tree -/

theorem mem_editAll {pos : Position} {ts : List Tree} {u : Tree} :
    u ∈ (editAll goes pos ts).1 ↔ ∃ t ∈ ts, u ∈ (edit goes pos t).1 := by
  rw [editAll_eq, List.mem_flatMap]

/-- What stands in the place of a node that goes is `void 0` if anything. -/
theorem mem_replacement {pos : Position} {t u : Tree} (h : u ∈ t.replacement goes pos) :
    u = voidZero t.span := by
  unfold replacement at h
  split at h
  · split at h <;> simp_all
  · split at h <;> simp_all
  · simpa using h

/-- A node that stays has its parts edited. -/
theorem mem_edit_node {pos : Position} {label : Label} {span : Span} {parts : List Tree} {u : Tree}
    (ht : (node label span parts).taken goes pos = false)
    (h : u ∈ (edit goes pos (node label span parts)).1) :
    u = node label span (editAll goes (pos.below label parts.length) parts).1 := by
  rw [edit_node ht] at h
  dsimp only at h
  split at h
  · cases h
  · simpa using h

/-- A node that stays is left, but for a declaration in a statement list without its last variable. -/
theorem edit_node_cases {pos : Position} {label : Label} {span : Span} {parts : List Tree}
    (ht : (node label span parts).taken goes pos = false) :
    (edit goes pos (node label span parts)).1 =
        [node label span (editAll goes (pos.below label parts.length) parts).1] ∨
      (isListedDeclaration pos label = true ∧
        (editAll goes (pos.below label parts.length) parts).1 = []) := by
  rw [edit_node ht]
  dsimp only
  split
  · rename_i h
    obtain ⟨hlabel, hempty⟩ := Bool.and_eq_true_iff.mp h
    exact .inr ⟨hlabel, List.isEmpty_iff.mp hempty⟩
  · exact .inl rfl

/-- An edit leaves the source of an import alone. -/
theorem importSource?_edited (goes : String → Bool) (pos : Position) (label : Label) (span : Span)
    (parts : List Tree) :
    (node label span (editAll goes (pos.below label parts.length) parts).1).importSource? =
      (node label span parts).importSource? := by
  cases label with
  | importDeclaration typeOnly phase =>
    have hbelow : pos.below (.importDeclaration typeOnly phase) parts.length = .elsewhere := by
      cases pos <;> rfl
    rw [hbelow, editAll_elsewhere]
    match parts with
    | [_, source, _] => simp [importSource?]
    | [] | [_] | [_, _] | _ :: _ :: _ :: _ :: _ => rfl
  | _ => rfl

/-- An edit leaves the source of a call alone. -/
theorem requireSource?_edited (goes : String → Bool) (pos : Position) (label : Label) (span : Span)
    (parts : List Tree) :
    (node label span (editAll goes (pos.below label parts.length) parts).1).requireSource? =
      (node label span parts).requireSource? := by
  cases label with
  | call isOptional isPure =>
    have hbelow : pos.below (.call isOptional isPure) parts.length = .elsewhere := by
      cases pos <;> rfl
    rw [hbelow, editAll_elsewhere]
    match parts with
    | callee :: _ :: argument :: _ => simp [requireSource?]
    | [] | [_] | [_, _] => rfl
  | _ => rfl

/-- A node names what it named, whichever references are asked for. -/
theorem names_edited (goes asked : String → Bool) (pos : Position) (label : Label) (span : Span)
    (parts : List Tree) :
    (node label span (editAll goes (pos.below label parts.length) parts).1).names asked =
      (node label span parts).names asked := by
  rw [names_eq, names_eq, importSource?_edited, requireSource?_edited]

/-- An expression that stays calls `require` for what it called it for. -/
theorem requiredBy?_edited {label : Label} {span : Span} {parts : List Tree}
    (h : (node label span parts).isTarget goes = false) (pos : Position) :
    (node label span (editAll goes (pos.below label parts.length) parts).1).requiredBy? =
      (node label span parts).requiredBy? := by
  generalize ht : node label span parts = t at h
  induction t using nodeInduction generalizing pos label span parts with
  | node _ _ _ ih =>
    obtain ⟨rfl, rfl, rfl⟩ := node.inj ht
    by_cases hlabel : label = .parenthesized
    · subst hlabel
      have hbelow : pos.below .parenthesized parts.length = .elsewhere := by cases pos <;> rfl
      rw [hbelow, editAll_elsewhere]
      match parts, ih, h with
      | [node innerLabel innerSpan innerParts], ih, h =>
        rw [isTarget, requiredBy?_parenthesized] at h
        simp only [List.map_cons, List.map_nil, requiredBy?_parenthesized, remove_of_not_target h]
        exact ih _ (List.mem_singleton_self _) .elsewhere rfl h
      | [], _, _ | _ :: _ :: _, _, _ => rfl
    · rw [requiredBy?_of_ne (t := node label span parts) hlabel, requiredBy?_of_ne (by exact hlabel),
        requireSource?_edited]

theorem requiredBy?_remove {t : Tree} (h : t.isTarget goes = false) :
    (remove goes t).1.requiredBy? = t.requiredBy? := by
  obtain ⟨label, span, parts⟩ := t
  rw [remove_of_not_target h]
  exact requiredBy?_edited h .elsewhere

theorem statementSource?_edited {label : Label} {span : Span} {parts : List Tree}
    (h : (node label span parts).statementSource?.any goes = false) :
    (node label span
      (editAll goes (Position.below .listed label parts.length) parts).1).statementSource? =
      (node label span parts).statementSource? := by
  have himport := importSource?_edited goes .listed label span parts
  by_cases hlabel : label = .expressionStatement
  · subst hlabel
    have hbelow : Position.below .listed .expressionStatement parts.length = .elsewhere := rfl
    rw [hbelow, editAll_elsewhere] at himport ⊢
    match parts, h with
    | [e], h => exact requiredBy?_remove h
    | [], _ | _ :: _ :: _, _ => rfl
  · have hother : ∀ parts, (node label span parts).statementSource? =
        (node label span parts).importSource? := by
      intro parts
      cases label <;> first | rfl | exact absurd rfl hlabel
    rw [hother, hother, himport]

theorem declaratorSource?_edited {label : Label} {span : Span} {parts : List Tree}
    (h : (node label span parts).declaratorSource?.any goes = false) :
    (node label span
      (editAll goes (Position.below .declared label parts.length) parts).1).declaratorSource? =
      (node label span parts).declaratorSource? := by
  cases label with
  | declarator definite =>
    have hbelow : Position.below .declared (.declarator definite) parts.length = .elsewhere := rfl
    rw [hbelow, editAll_elsewhere]
    match parts, h with
    | [_, value], h => exact requiredBy?_remove h
    | [], _ | [_], _ | _ :: _ :: _ :: _, _ => rfl
  | _ => rfl

theorem wholeSource?_edited {pos : Position} {label : Label} {span : Span} {parts : List Tree}
    (h : (wholeSource? pos (node label span parts)).any goes = false) :
    wholeSource? pos (node label span (editAll goes (pos.below label parts.length) parts).1) =
      wholeSource? pos (node label span parts) := by
  cases pos with
  | chained | elsewhere => rfl
  | listed => exact statementSource?_edited h
  | declared => exact declaratorSource?_edited h

/-- An edit neither makes nor unmakes a match: a node that stays is taken by another edit exactly if
that one would have taken it before its parts were edited. -/
theorem taken_edited (second : String → Bool) {pos : Position} {label : Label} {span : Span}
    {parts : List Tree} (h : (node label span parts).taken goes pos = false) :
    (node label span (editAll goes (pos.below label parts.length) parts).1).taken second pos =
      (node label span parts).taken second pos := by
  by_cases hpos : pos = .chained
  · rw [hpos]; rfl
  · rw [taken_eq, decide_eq_true hpos, Bool.true_and, Bool.or_eq_false_iff] at h
    rw [taken_eq, taken_eq, wholeSource?_edited h.1, isTarget, isTarget, requiredBy?_edited h.2]

/-- **What an edit leaves behind.**  If what a node is after its parts are edited can be told before,
then some node that is left is so exactly if removal looks at a node that will be. -/
theorem anyNode_edit_iff {own : Tree → Bool} {property : Position → Tree → Prop}
    (hvoid : ∀ span, (voidZero span).anyNode own = false)
    (hempty : ∀ kind isDeclare span, own (node (.variableList kind isDeclare) span []) = false)
    (hown : ∀ pos label span parts, property pos (node label span parts) ↔
      (node label span parts).taken goes pos = false ∧
        own (node label span (editAll goes (pos.below label parts.length) parts).1) = true)
    (pos : Position) (t : Tree) :
    (∃ u ∈ (edit goes pos t).1, u.anyNode own = true) ↔ Meets goes property pos t := by
  induction t using nodeInduction generalizing pos with
  | node label span parts ih =>
    rw [meets_node, hown]
    cases ht : (node label span parts).taken goes pos with
    | true =>
      rw [edit_of_taken ht]
      simp only [Bool.true_eq_false, false_and, or_self, iff_false]
      rintro ⟨u, hu, hnode⟩
      rw [mem_replacement hu, hvoid] at hnode
      cases hnode
    | false =>
      have hparts : (∃ u ∈ (editAll goes (pos.below label parts.length) parts).1,
            u.anyNode own = true) ↔
          ∃ p ∈ parts, Meets goes property (pos.below label parts.length) p := by
        constructor
        · rintro ⟨u, hu, hnode⟩
          obtain ⟨p, hp, hup⟩ := mem_editAll.mp hu
          exact ⟨p, hp, (ih p hp _).mp ⟨u, hup, hnode⟩⟩
        · rintro ⟨p, hp, hmeets⟩
          obtain ⟨u, hu, hnode⟩ := (ih p hp _).mpr hmeets
          exact ⟨u, mem_editAll.mpr ⟨p, hp, hu⟩, hnode⟩
      simp only [true_and, ← hparts]
      rw [← anyNode_node]
      constructor
      · rintro ⟨u, hu, hnode⟩
        rwa [mem_edit_node ht hu] at hnode
      · intro hnode
        rcases edit_node_cases ht with hstays | ⟨hlabel, hkept⟩
        · exact ⟨_, by rw [hstays]; exact List.mem_singleton_self _, hnode⟩
        · -- a declaration without variables has no node that could be so
          obtain ⟨-, kind, isDeclare, rfl⟩ := isListedDeclaration_eq_true hlabel
          rw [hkept, anyNode_node] at hnode
          simp [hempty] at hnode

/-- **What an edit leaves behind** mentions a package exactly if the tree sheltered a reference to it. -/
theorem mentions_edit_iff (pos : Position) (t : Tree) :
    (∃ u ∈ (edit goes pos t).1, Mentions goes u) ↔ Shelters goes pos t := by
  simp only [mentions_iff_anyNode]
  refine anyNode_edit_iff (fun _ => rfl) (fun _ _ _ => rfl) (fun pos label span parts => ?_) pos t
  rw [sheltered_eq, names_edited, Bool.and_eq_true, Bool.not_eq_true', and_comm]

instance (pos : Position) (t : Tree) : Decidable (Exposes goes pos t) :=
  decidable_of_iff _ (count_pos_iff pos t)

instance (t : Tree) : Decidable (Mentions goes t) :=
  inferInstanceAs (Decidable (∃ r ∈ t.references, goes r.request = true))

instance (pos : Position) (t : Tree) : Decidable (Shelters goes pos t) :=
  decidable_of_iff _ (mentions_edit_iff pos t)

/-! ## 4. Removal done twice -/

theorem exposes_of_taken {pos : Position} {t : Tree} (h : t.taken goes pos = true) :
    Exposes goes pos t := ⟨pos, t, .here pos t, h⟩

theorem length_editAll {pos : Position} (h : pos = .elsewhere ∨ pos = .chained) (ts : List Tree) :
    (editAll goes pos ts).1.length = ts.length := by
  rcases h with rfl | rfl
  · simp [editAll_elsewhere]
  · induction ts with
    | nil => rfl
    | cons t ts ih =>
      obtain ⟨label, span, parts⟩ := t
      rw [editAll, edit_chained]
      simpa using ih

/-- Only for a chain it matters how many parts a node has, and an edit leaves as many of them. -/
theorem below_edited (goes : String → Bool) (pos : Position) (label : Label) (parts : List Tree) :
    pos.below label (editAll goes (pos.below label parts.length) parts).1.length =
      pos.below label parts.length := by
  by_cases hchain : label = .chain
  · subst hchain
    rw [length_editAll]
    unfold Position.below
    split <;> simp_all
  · generalize (editAll goes (pos.below label parts.length) parts).1.length = n
    unfold Position.below
    split <;> simp_all

theorem edit_voidZero (goes : String → Bool) (pos : Position) (span : Span) :
    edit goes pos (voidZero span) = ([voidZero span], 0) := by
  have hleaf : ∀ (pos : Position) (label : Label) (parts : List Tree),
      label = .unary .voidOf ∨ label = .number .zero →
        (node label span parts).taken goes pos = false := by
    intro pos label parts hlabel
    have htarget : (node label span parts).isTarget goes = false := by
      rw [isTarget_of_ne (by rcases hlabel with rfl | rfl <;> simp [Tree.label])]
      rcases hlabel with rfl | rfl <;> rfl
    rcases hlabel with rfl | rfl <;> cases pos <;>
      simp [taken, htarget, statementSource?, importSource?, declaratorSource?]
  have hzero : ∀ pos, edit goes pos (node (.number .zero) span []) =
      ([node (.number .zero) span []], 0) := by
    intro pos
    rw [edit_node (hleaf _ _ _ (.inr rfl))]
    cases pos <;> rfl
  rw [voidZero, edit_node (hleaf _ _ _ (.inl rfl)), editAll, hzero]
  cases pos <;> rfl

theorem not_exposes_voidZero (goes : String → Bool) (pos : Position) (span : Span) :
    ¬Exposes goes pos (voidZero span) := by
  rw [← count_pos_iff, edit_voidZero]
  exact Nat.lt_irrefl 0

/-- **The edited tree exposes nothing**, so there is nothing left for a second removal to count. -/
theorem not_exposes_edit {pos : Position} {t u : Tree} (h : u ∈ (edit goes pos t).1) :
    ¬Exposes goes pos u := by
  induction t using nodeInduction generalizing pos u with
  | node label span parts ih =>
    cases ht : (node label span parts).taken goes pos with
    | true =>
      rw [edit_of_taken ht] at h
      rw [mem_replacement h]
      exact not_exposes_voidZero goes pos _
    | false =>
      have hparts : ∀ u ∈ (editAll goes (pos.below label parts.length) parts).1,
          ¬Exposes goes (pos.below label parts.length) u := by
        intro u hu
        obtain ⟨p, hp, hup⟩ := mem_editAll.mp hu
        exact ih p hp hup
      rw [mem_edit_node ht h, exposes_node, taken_edited goes ht, ht, below_edited]
      rintro (h | ⟨u, hu, hexposes⟩)
      · cases h
      · exact hparts u hu hexposes

theorem editAll_of_forall {pos : Position} {ts : List Tree}
    (h : ∀ t ∈ ts, edit goes pos t = ([t], 0)) : editAll goes pos ts = (ts, 0) := by
  induction ts with
  | nil => rfl
  | cons t ts ih =>
    rw [editAll, h t (by simp), ih fun u hu => h u (by simp [hu])]
    rfl

/-- **An edit done twice is an edit done once.** -/
theorem edit_edit {pos : Position} {t u : Tree} (h : u ∈ (edit goes pos t).1) :
    edit goes pos u = ([u], 0) := by
  induction t using nodeInduction generalizing pos u with
  | node label span parts ih =>
    have hstays : u.taken goes pos = false :=
      Bool.eq_false_iff.mpr fun htaken => not_exposes_edit h (exposes_of_taken htaken)
    cases ht : (node label span parts).taken goes pos with
    | true =>
      rw [edit_of_taken ht] at h
      obtain rfl := mem_replacement h
      exact edit_voidZero goes pos _
    | false =>
      obtain rfl := mem_edit_node ht h
      have hparts : editAll goes (pos.below label parts.length)
          (editAll goes (pos.below label parts.length) parts).1 =
            ((editAll goes (pos.below label parts.length) parts).1, 0) := by
        refine editAll_of_forall fun k hk => ?_
        obtain ⟨p, hp, hkp⟩ := mem_editAll.mp hk
        exact ih p hp hkp
      rw [edit_node hstays, below_edited, hparts]
      rw [edit_node ht] at h
      dsimp only at h ⊢
      split
      · rename_i hempty
        rw [if_pos hempty] at h
        cases h
      · rfl

/-! ## 5. Whole trees -/

theorem remove_count_pos_iff (goes : String → Bool) (t : Tree) :
    0 < (remove goes t).2 ↔ Exposes goes .elsewhere t := by
  rw [← count_pos_iff, edit_elsewhere]

/-- **What removal leaves** mentions a package exactly if the tree sheltered a reference to it. -/
theorem mentions_remove_iff (goes : String → Bool) (t : Tree) :
    Mentions goes (remove goes t).1 ↔ Shelters goes .elsewhere t := by
  rw [← mentions_edit_iff, edit_elsewhere]
  simp

/-- **Removal done twice** is removal done once. -/
theorem remove_remove (goes : String → Bool) (t : Tree) :
    remove goes (remove goes t).1 = ((remove goes t).1, 0) := by
  have htwice : edit goes .elsewhere (remove goes t).1 = ([(remove goes t).1], 0) :=
    edit_edit (t := t) (by simp [edit_elsewhere])
  rw [edit_elsewhere, Prod.mk.injEq, List.singleton_inj] at htwice
  exact Prod.ext htwice.1 htwice.2

end PackageRefs.Script.Tree
