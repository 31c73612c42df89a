/-
# A second removal

A second removal reads what the first one printed.  On the tree that was printed it would find nothing
(`Script.Tree.remove_remove`), so whatever else happens comes from printing and reading.  Two things
can happen: the text cannot be read, or it is read as another tree, which exposes a reference.

* `run_exact_twice_iff`: the second removal finds nothing and leaves the file alone exactly if neither
  happens.
* `not_exposes_of_same`: the second thing does not happen if the text is read as the tree that was
  printed, up to the places of its nodes in the text.
* `readable_again_of_isPlain`: of a plain script the text is read as that tree, unless an arrow function
  is printed without its expression.

An arrow function is without its expression exactly if the first removal took it
(`Script.Tree.hollow_remove_iff`).

**Both can happen.**  An arrow function whose expression goes is printed without one
(`Example.arrow_unreadable`).  A call of `require` with parentheses around its callee is no reference,
but it is printed without them and read as one (`Example.parentheses_removed`).
-/
import Mathlib.Data.List.Forall2
import Mathlib.Data.Prod.Basic
import PackageRefs.Proofs.Plain.Printing
import PackageRefs.Proofs.Removal.Forced
import PackageRefs.Proofs.Removal.Hollow
import PackageRefs.Proofs.Removal.Structural

namespace PackageRefs

open PackageRefs.Disk PackageRefs.Script PackageRefs.Text

/-! ## 1. Trees that are the same up to their places in the text -/

namespace Script.Tree

variable {goes : String → Bool}

theorem sameAll_iff {ts us : List Tree} :
    sameAll ts us = true ↔ List.Forall₂ (fun t u => t.same u = true) ts us := by
  induction ts generalizing us with
  | nil => cases us <;> simp [sameAll, List.forall₂_nil_left_iff]
  | cons t ts ih => cases us <;> simp [sameAll, ih, List.forall₂_nil_right_iff]

theorem same_node {l k : Label} {s r : Span} {ps qs : List Tree} :
    (node l s ps).same (node k r qs) = true ↔
      l = k ∧ List.Forall₂ (fun t u => t.same u = true) ps qs := by
  rw [same, Bool.and_eq_true, beq_iff_eq, sameAll_iff]

theorem stringValue?_of_same {t u : Tree} (h : t.same u = true) : t.stringValue? = u.stringValue? := by
  obtain ⟨label, _, _⟩ := t
  obtain ⟨label', _, _⟩ := u
  obtain ⟨rfl, -⟩ := same_node.mp h
  cases label <;> rfl

theorem identifierName?_of_same {t u : Tree} (h : t.same u = true) :
    t.identifierName? = u.identifierName? := by
  obtain ⟨label, _, _⟩ := t
  obtain ⟨label', _, _⟩ := u
  obtain ⟨rfl, -⟩ := same_node.mp h
  cases label <;> rfl

theorem importSource?_of_same {t u : Tree} (h : t.same u = true) :
    t.importSource? = u.importSource? := by
  obtain ⟨label, _, ps⟩ := t
  obtain ⟨label', _, qs⟩ := u
  obtain ⟨rfl, hparts⟩ := same_node.mp h
  cases label with
  | importDeclaration typeOnly phase =>
    match hparts with
    | .nil | .cons _ .nil | .cons _ (.cons _ .nil) => rfl
    | .cons _ (.cons hsource (.cons _ .nil)) => exact stringValue?_of_same hsource
    | .cons _ (.cons _ (.cons _ (.cons _ _))) => rfl
  | _ => rfl

theorem requireSource?_of_same {t u : Tree} (h : t.same u = true) :
    t.requireSource? = u.requireSource? := by
  obtain ⟨label, _, ps⟩ := t
  obtain ⟨label', _, qs⟩ := u
  obtain ⟨rfl, hparts⟩ := same_node.mp h
  cases label with
  | call isOptional isPure =>
    match hparts with
    | .nil | .cons _ .nil | .cons _ (.cons _ .nil) => rfl
    | .cons hcallee (.cons _ (.cons hargument _)) =>
      simp only [requireSource?, identifierName?_of_same hcallee, stringValue?_of_same hargument]
  | _ => rfl

theorem requiredBy?_of_same {t u : Tree} (h : t.same u = true) : t.requiredBy? = u.requiredBy? := by
  induction t using nodeInduction generalizing u with
  | node label span parts ih =>
    obtain ⟨label', span', qs⟩ := u
    have hrequire := requireSource?_of_same h
    obtain ⟨rfl, hparts⟩ := same_node.mp h
    by_cases hlabel : label = .parenthesized
    · subst hlabel
      match hparts with
      | .nil => rfl
      | .cons hinner .nil =>
        simp only [requiredBy?_parenthesized]
        exact ih _ (by simp) hinner
      | .cons _ (.cons _ _) => rfl
    · rw [requiredBy?_of_ne (by simpa [Tree.label] using hlabel), hrequire,
        requiredBy?_of_ne (by simpa [Tree.label] using hlabel)]

theorem statementSource?_of_same {t u : Tree} (h : t.same u = true) :
    t.statementSource? = u.statementSource? := by
  have himport := importSource?_of_same h
  obtain ⟨label, _, ps⟩ := t
  obtain ⟨label', _, qs⟩ := u
  obtain ⟨rfl, hparts⟩ := same_node.mp h
  cases label with
  | expressionStatement =>
    match hparts with
    | .nil | .cons _ (.cons _ _) => rfl
    | .cons he .nil => exact requiredBy?_of_same he
  | importDeclaration typeOnly phase => exact himport
  | _ => rfl

theorem declaratorSource?_of_same {t u : Tree} (h : t.same u = true) :
    t.declaratorSource? = u.declaratorSource? := by
  obtain ⟨label, _, ps⟩ := t
  obtain ⟨label', _, qs⟩ := u
  obtain ⟨rfl, hparts⟩ := same_node.mp h
  cases label with
  | declarator definite =>
    match hparts with
    | .nil | .cons _ .nil | .cons _ (.cons _ (.cons _ _)) => rfl
    | .cons _ (.cons hvalue .nil) => exact requiredBy?_of_same hvalue
  | _ => rfl

theorem taken_of_same (goes : String → Bool) {t u : Tree} (h : t.same u = true) (pos : Position) :
    t.taken goes pos = u.taken goes pos := by
  cases pos <;> simp only [taken, isTarget, requiredBy?_of_same h, statementSource?_of_same h,
    declaratorSource?_of_same h]

/-- **Trees that are the same expose the same.** -/
theorem exposes_of_same {t u : Tree} (h : t.same u = true) {pos : Position}
    (hexposes : Exposes goes pos t) : Exposes goes pos u := by
  induction t using nodeInduction generalizing pos u with
  | node label span parts ih =>
    obtain ⟨label', span', qs⟩ := u
    have htaken := taken_of_same goes h pos
    obtain ⟨rfl, hparts⟩ := same_node.mp h
    rw [exposes_node, htaken, hparts.length_eq] at hexposes
    refine exposes_node.mpr (hexposes.imp_right ?_)
    rintro ⟨p, hp, hexposes⟩
    obtain ⟨i, hi, rfl⟩ := List.mem_iff_getElem.mp hp
    have hi' : i < qs.length := hparts.length_eq ▸ hi
    exact ⟨qs[i], List.getElem_mem hi', ih _ hp (hparts.get hi hi') hexposes⟩

end Script.Tree

/-! ## 2. What the second removal reads -/

variable {file source package : String}

/-- **A text that is read as the tree that was printed** exposes nothing. -/
theorem not_exposes_of_same {text : String}
    (h : (programRead file text .exact).same (programLeft file source package .exact) = true) :
    ¬Tree.Exposes (MatchMode.exact.test package) .elsewhere (programRead file text .exact) := by
  intro hexposes
  have hleft := Tree.exposes_of_same h hexposes
  rw [← Tree.remove_count_pos_iff, programLeft, Tree.remove_remove] at hleft
  exact Nat.lt_irrefl 0 hleft

/-! ## 3. Plain scripts -/

namespace Plain

variable {free free' : Nat → Prop} {e : Expr} {l : Line} {t t' : Tree}

theorem Depicts.same (h : Depicts free e t) (h' : Depicts free' e t') : t.same t' = true := by
  induction h generalizing t' with
  | call callee calleeSpan hend hstart _ ih =>
    cases h' with
    | call callee calleeSpan hend hstart h' =>
      simpa [Parser.callNode, Parser.nameNode, Tree.same, Tree.sameAll, Tree.absent] using ih h'
  | arrow span listSpan bodySpan _ ih =>
    cases h' with
    | arrow span listSpan bodySpan h' =>
      simpa [Parser.arrowNode, Tree.same, Tree.sameAll, Tree.absent] using ih h'
  | _ =>
    cases h'
    simp [Parser.callNode, Parser.nameNode, stringNode, hollowNode, Tree.same, Tree.sameAll, Tree.absent]

theorem Shows.same (h : Shows free l t) (h' : Shows free' l t') : t.same t' = true := by
  cases h with
  | imported request span sourceSpan =>
    cases h'
    simp [importNode, stringNode, Tree.same, Tree.sameAll, Tree.absent]
  | bound name span variableSpan nameSpan h =>
    cases h' with
    | bound name span variableSpan nameSpan h' =>
      simpa [Parser.constantNode, Parser.variableNode, Tree.same, Tree.sameAll] using h.same h'
  | run span h =>
    cases h' with
    | run span h' => simpa [Tree.same, Tree.sameAll] using h.same h'

/-- **Scripts with the same statements** have the same tree. -/
theorem Displays.same {lines lines' : List Line} {comments comments' : List Comment} (h : Displays lines comments t)
    (h' : Displays lines' comments' t') (hstatements : statements lines = statements lines') : t.same t' = true := by
  obtain ⟨-, ts, ⟨span, directivesSpan, statementsSpan, rfl⟩, hshows⟩ := h
  obtain ⟨-, ts', ⟨span', directivesSpan', statementsSpan', rfl⟩, hshows'⟩ := h'
  have hsame : Tree.sameAll ts ts' = true := by
    rw [← hstatements] at hshows'
    generalize statements lines = shown at hshows hshows'
    rw [Tree.sameAll_iff]
    induction hshows generalizing ts' with
    | nil =>
      cases hshows'
      exact .nil
    | cons h _ ih =>
      cases hshows' with
      | cons h' hshows' => exact .cons (h.same h') (ih _ hshows')
  simpa [Tree.same, Tree.sameAll] using hsame

variable {script : List Line}

/-- A plain script is read in some dialect, and can be read exactly if no arrow function lacks its expression. -/
theorem readForRemoval_of_isPlain (file : String) (hplain : ∀ l ∈ script, l.isPlain = true) :
    (readingFailed .exact (readForRemoval file (String.ofList (scriptText script)) .exact).1 = false ↔
        ∀ l ∈ script, l.isHollow = false) ∧
      (readingFailed .exact (readForRemoval file (String.ofList (scriptText script)) .exact).1 = false →
        Displays script (readForRemoval file (String.ofList (scriptText script)) .exact).1.comments
          (programRead file (String.ofList (scriptText script)) .exact)) := by
  obtain ⟨dialect, hread⟩ := exists_dialect file (String.ofList (scriptText script)) .exact
  simpa [programRead, hread, readingFailed] using parse_script dialect hplain

end Plain

/-- **A plain script can be read again** exactly if no arrow function of it loses its expression, and it exposes
nothing then. -/
theorem readable_again_of_isPlain {script : List Plain.Line} (hplain : ∀ l ∈ script, l.isPlain = true)
    (hscript : source = String.ofList (Plain.scriptText script))
    (hread : readingFailed .exact (readForRemoval file source .exact).1 = false) :
    (readingFailed .exact (readForRemoval file (textLeft file source package .exact) .exact).1 = false ∧
        ¬Tree.Exposes (MatchMode.exact.test package) .elsewhere
          (programRead file (textLeft file source package .exact) .exact)) ↔
      ¬Tree.Hollows (MatchMode.exact.test package) .elsewhere (programRead file source .exact) := by
  have hdisplays : Plain.Displays ((Plain.statements script).filterMap
      (Plain.Line.left? (MatchMode.exact.test package))) (readForRemoval file source .exact).1.comments
      (programLeft file source package .exact) := by
    subst hscript
    exact ((Plain.readForRemoval_of_isPlain file hplain).2 hread).remove hplain
  obtain ⟨lines, hlines, hstatements, hprint⟩ := hdisplays.print (Plain.isPlain_of_mem_left _ hplain)
    (readForRemoval file source .exact).2
  have htext : textLeft file source package .exact = String.ofList (Plain.scriptText lines) := hprint
  have hhollow : lines.any Plain.Line.isHollow = (programLeft file source package .exact).anyNode Tree.isHollow := by
    rw [hdisplays.anyHollow, ← Plain.any_isHollow_statements, hstatements, Plain.any_isHollow_statements]
  have hwhole : (∀ l ∈ lines, l.isHollow = false) ↔
      ¬Tree.Hollows (MatchMode.exact.test package) .elsewhere (programRead file source .exact) := by
    rw [← Tree.hollow_remove_iff, ← programLeft, ← hhollow, Bool.not_eq_true, List.any_eq_false]
    simp
  obtain ⟨hagain, hsame⟩ := Plain.readForRemoval_of_isPlain file hlines
  rw [htext, hagain, ← hwhole]
  exact and_iff_left_of_imp fun h => not_exposes_of_same ((hsame (hagain.mpr h)).same hdisplays hstatements)

/-! ## 4. Two runs -/

namespace RemovalRequest

variable {request : RemovalRequest} {m : Machine}

/-- A removal without force finds nothing exactly if the structural removal does, and then nothing is
touched. -/
theorem run_exact_notFound_iff (hforce : request.force = false) {source : String}
    (hsource : m.disk.readSource request.file = .ok source) :
    ((request.run m).1 = .ok .notFound ∧
        (request.run m).2.disk.read request.file = m.disk.read request.file) ↔
      removeStructurally request.file source request.package .exact = .unchanged := by
  rw [run_eq_runExact hforce hsource]
  unfold runExact
  cases removeStructurally request.file source request.package .exact with
  | unreadable complaint => simp
  | unchanged => simp
  | changed r =>
    simp only [reduceCtorEq, iff_false, not_and]
    cases m.save request.file r.code with
    | mk result m₁ => cases result <;> simp [Change.outcome]

/-- A removal without force that removed something has written what the structural removal leaves. -/
theorem run_exact_of_removed (hforce : request.force = false) {strategy : RemovalStrategy}
    {count before after : Nat} {m' : Machine}
    (hrun : request.run m = (.ok (.removed strategy count before after), m')) :
    ∃ source, m.disk.readSource request.file = .ok source ∧
      removeStructurally request.file source request.package .exact =
        .changed ⟨textLeft request.file source request.package .exact, count⟩ ∧
      m'.disk.readSource request.file = .ok (textLeft request.file source request.package .exact) := by
  cases hsource : m.disk.readSource request.file with
  | error e =>
    unfold run at hrun
    simp [hsource] at hrun
  | ok source =>
    refine ⟨source, rfl, ?_⟩
    rw [run_eq_runExact hforce hsource] at hrun
    unfold runExact at hrun
    cases hremove : removeStructurally request.file source request.package .exact with
    | unreadable complaint => simp [hremove] at hrun
    | unchanged => simp [hremove] at hrun
    | changed r =>
      obtain ⟨-, -, rfl⟩ := removeStructurally_eq_changed_iff.mp hremove
      obtain ⟨content, hread, -⟩ := Disk.readSource_eq_ok_iff.mp hsource
      obtain ⟨p, hheld⟩ := Disk.exists_holdsAt_of_read hread
      obtain ⟨program, hsave⟩ := Machine.save_of_locate
        (textLeft request.file source request.package .exact) hheld.locate_eq hheld.ne_directory
      rcases hsave with ⟨-, hsave⟩ | ⟨hfits, hsave⟩
      · simp [hremove, hsave] at hrun
      · have hwritten := Machine.holdsAt_written
          (encode (textLeft request.file source request.package .exact)) program
          hheld.locate_eq hheld.ne_directory
        rw [Disk.fitting_of_not_exceeds hfits] at hwritten
        simp only [hremove, hsave, Prod.mk.injEq, Except.ok.injEq, Change.outcome,
          RemovalOutcome.removed.injEq] at hrun
        obtain ⟨⟨-, rfl, -, -⟩, rfl⟩ := hrun
        exact ⟨rfl, Disk.readSource_eq_ok_iff.mpr ⟨_, hwritten.read_eq, decode?_encode _⟩⟩

/-- **A second removal** finds nothing and leaves the file alone exactly if what the first one wrote can
be read and its tree exposes no reference to the package.  The tree that the first one printed exposes
none, and so does any tree that is the same up to places.  Of a plain script, what the first one wrote can be
read, and as that tree, exactly if no arrow function of the script loses its expression. -/
theorem run_exact_twice_iff (hforce : request.force = false) {strategy : RemovalStrategy}
    {count before after : Nat} {m' : Machine}
    (hrun : request.run m = (.ok (.removed strategy count before after), m')) :
    ∃ source text, m.disk.readSource request.file = .ok source ∧
      m'.disk.readSource request.file = .ok text ∧
      text = textLeft request.file source request.package .exact ∧
      (((request.run m').1 = .ok .notFound ∧
          (request.run m').2.disk.read request.file = m'.disk.read request.file) ↔
        readingFailed .exact (readForRemoval request.file text .exact).1 = false ∧
          ¬Tree.Exposes (MatchMode.exact.test request.package) .elsewhere
            (programRead request.file text .exact)) ∧
      ((programRead request.file text .exact).same
          (programLeft request.file source request.package .exact) = true →
        ¬Tree.Exposes (MatchMode.exact.test request.package) .elsewhere
          (programRead request.file text .exact)) ∧
      ((programLeft request.file source request.package .exact).anyNode Tree.isHollow = true ↔
        Tree.Hollows (MatchMode.exact.test request.package) .elsewhere
          (programRead request.file source .exact)) ∧
      ∀ script : List Plain.Line, (∀ l ∈ script, l.isPlain = true) →
        source = String.ofList (Plain.scriptText script) →
        (((request.run m').1 = .ok .notFound ∧
            (request.run m').2.disk.read request.file = m'.disk.read request.file) ↔
          ¬Tree.Hollows (MatchMode.exact.test request.package) .elsewhere
            (programRead request.file source .exact)) := by
  obtain ⟨source, hsource, hremove, hleft⟩ := run_exact_of_removed hforce hrun
  have hread := (removeStructurally_eq_changed_iff.mp hremove).1
  have hagain := (run_exact_notFound_iff hforce hleft).trans removeStructurally_eq_unchanged_iff
  exact ⟨source, _, hsource, hleft, rfl, hagain, not_exposes_of_same, Tree.hollow_remove_iff _ _,
    fun script hplain hscript => hagain.trans (readable_again_of_isPlain hplain hscript hread)⟩

/-! ## 5. What can happen -/

namespace Example

/-- A removal without force. -/
def plain : RemovalRequest := { file := "a.js", package := "x" }

/-- A script with a call of `require` as an argument. -/
def calling : Machine := Machine.holding "a.js" "f(require('x'))"

/-- The call goes, and the second removal finds nothing. -/
theorem calling_settled :
    (plain.run calling).1 = .ok (.removed .structural 1 15 11) ∧
      (plain.run (plain.run calling).2).1 = .ok .notFound := by
  have hfirst : (plain.run calling).1 = .ok (.removed .structural 1 15 11) := by decide +kernel
  have hrun : plain.run calling =
      (.ok (.removed .structural 1 15 11), (plain.run calling).2) :=
    Prod.fst_eq_iff.mp hfirst
  have hread : calling.disk.readSource plain.file = .ok "f(require('x'))" := by decide +kernel
  have hforce : plain.force = false := by decide
  obtain ⟨source, text, hsource, -, rfl, hiff, -⟩ := run_exact_twice_iff hforce hrun
  obtain rfl : source = "f(require('x'))" := Except.ok.inj (hsource.symm.trans hread)
  exact ⟨hfirst, (hiff.mpr (by decide +kernel)).1⟩

/-- The expression of an arrow function goes, and the second removal cannot read what is left. -/
theorem arrow_unreadable :
    let m := Machine.holding "a.js" "const f = () => require('x');"
    (plain.run m).1 = .ok (.removed .structural 1 29 18) ∧
      (plain.run (plain.run m).2).1 = .error (.unreadable "a.js" "Unexpected token") := by
  decide +kernel

/-- A call that was no reference because of its parentheses is one when it is printed without them. -/
theorem parentheses_removed :
    let m := Machine.holding "a.js" "import 'x'; (require)('x')"
    (plain.run m).1 = .ok (.removed .structural 1 26 14) ∧
      (plain.run (plain.run m).2).1 = .ok (.removed .structural 1 14 0) := by
  decide +kernel

end Example

end RemovalRequest

end PackageRefs
