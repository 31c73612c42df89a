/-
# When a forced removal keeps a script valid

A forced removal of a script that can be read takes one of two ways.  If the tree of the script exposes
a reference, the edited tree is printed; otherwise statements are put into comments, wherever in the
text they are found.

* `first?_of_valid`: which of the two it is.
* `run_force_valid_iff`: when what is written can be read.

**What is left to printing.**  That a printed tree can be read, unless an arrow function in it is hollow, is
nothing that removal could see to.  `PrintsReadably` says this of one tree, and where it is true of the edited
tree, the tree of the script tells whether the first way leads to a valid script.  It is true of what is left of
every plain script (`printsReadably_of_isPlain`).

**What the searches meet.**  A search knows nothing of comments and literals, so the second way depends on the text
around what is found.  In plain scripts, whose comments, strings and templates may hold text that looks like a
statement, it is told for each line by itself whether it is spoiled (`commented_readable_of_isPlain`).

**Both ways can spoil a script.**  In `Example.arrow_spoiled` an arrow function loses its expression, and
in `Example.comment_spoiled` the new comment ends the one that it stands in.
-/
import Mathlib.Data.Prod.Basic
import PackageRefs.Proofs.Plain.Commenting
import PackageRefs.Proofs.Plain.Printing
import PackageRefs.Proofs.Removal.Forced
import PackageRefs.Proofs.Removal.Hollow
import PackageRefs.Proofs.Removal.Strip
import PackageRefs.Proofs.Removal.Structural

namespace PackageRefs

open PackageRefs.Disk PackageRefs.Script PackageRefs.Text

/-! ## 1. Printing -/

/-- The text of a tree can be read exactly if no arrow function in the tree is hollow. -/
def PrintsReadably (dialect : Dialect) (comments : List Comment) (t : Tree) : Prop :=
  (parse dialect (print .spacious dialect comments t)).succeeded = true ↔
    t.anyNode Tree.isHollow = false

instance (dialect : Dialect) (comments : List Comment) (t : Tree) :
    Decidable (PrintsReadably dialect comments t) :=
  inferInstanceAs (Decidable (_ ↔ _))

/-! ## 2. The way that is taken -/

namespace RemovalRequest

variable {request : RemovalRequest} {source : String}

/-- The test by which a forced removal tells the references that go. -/
abbrev goes (request : RemovalRequest) : String → Bool :=
  MatchMode.substring.test request.package

/-- The script as it is read in the dialect of the file. -/
abbrev reading (request : RemovalRequest) (source : String) : Parsed :=
  parse (Dialect.ofPath request.file) source

/-- The tree of the script exposes a reference that goes. -/
abbrev Exposed (request : RemovalRequest) (source : String) : Prop :=
  Tree.Exposes request.goes .elsewhere (request.reading source).program

/-- An arrow function of the script loses its expression. -/
abbrev Hollowed (request : RemovalRequest) (source : String) : Prop :=
  Tree.Hollows request.goes .elsewhere (request.reading source).program

/-- The tree of the script without the references that go. -/
def edited (request : RemovalRequest) (source : String) : Tree :=
  ((request.reading source).program.remove request.goes).1

/-- The text of the edited tree. -/
def printed (request : RemovalRequest) (source : String) : String :=
  print .spacious (Dialect.ofPath request.file) (request.reading source).comments
    (request.edited source)

/-- The text of the script with statements put into comments. -/
def commented (request : RemovalRequest) (source : String) : String :=
  (commentOutReferences source request.package).text

/-- **Which way is taken**: a tree that exposes a reference is edited, and the text of any other is
searched for statements. -/
theorem first?_of_valid (haggressive : request.aggressive = false)
    (hvalid : (request.reading source).succeeded = true) {change : Change}
    (hfirst : Change.first? request source = some change) :
    (change.strategy = .structural ∧ request.Exposed source ∧ change.text = request.printed source) ∨
      (change.strategy = .commentedOut ∧ ¬request.Exposed source ∧
        change.text = request.commented source) := by
  obtain ⟨hread, hreading⟩ := readForRemoval_of_valid hvalid .substring
  unfold Change.first? Change.structural? at hfirst
  cases hremove : removeStructurally request.file source request.package .substring with
  | unreadable complaint =>
    rw [removeStructurally_eq, hreading, if_neg (by simp [hread])] at hremove
    split at hremove <;> cases hremove
  | unchanged =>
    obtain ⟨-, hexposes⟩ := removeStructurally_eq_unchanged_iff.mp hremove
    rw [programRead, hreading] at hexposes
    refine .inr ?_
    simp only [hremove, haggressive, Change.ofEdited?, Bool.false_eq_true, if_false] at hfirst
    split at hfirst
    · rename_i hsome
      split at hsome
      · cases hsome
        cases hfirst
        exact ⟨rfl, hexposes, rfl⟩
      · cases hsome
    · cases hfirst
  | changed r =>
    obtain ⟨-, hexposes, rfl⟩ := removeStructurally_eq_changed_iff.mp hremove
    rw [programRead, hreading] at hexposes
    refine .inl ?_
    simp only [hremove, Option.some.injEq] at hfirst
    obtain rfl := hfirst
    refine ⟨rfl, hexposes, ?_⟩
    simp only [textLeft, programLeft, programRead, hreading]
    rfl

/-- The edited tree has a hollow arrow function exactly if an arrow function loses its expression. -/
theorem edited_hollow_iff (request : RemovalRequest) (source : String) :
    (request.edited source).anyNode Tree.isHollow = true ↔ request.Hollowed source :=
  Tree.hollow_remove_iff request.goes (request.reading source).program

/-! ## 3. Plain scripts -/

variable {script : List Plain.Line}

theorem goes_eq_false_iff {name : String} :
    request.goes name = false ↔ ¬request.package.toList <:+: name.toList := by
  rw [← occursIn_iff, Bool.not_eq_true]
  rfl

/-- A plain script can be read exactly if no arrow function in it lacks its expression. -/
theorem reading_succeeded_iff (hplain : ∀ l ∈ script, l.isPlain = true)
    (hscript : source = String.ofList (Plain.scriptText script)) :
    (request.reading source).succeeded = true ↔ ∀ l ∈ script, l.isHollow = false := by
  subst hscript
  exact (Plain.parse_script (Dialect.ofPath request.file) hplain).1

/-- **A printed tree can be read**, if it is that of a plain script, unless an arrow function in it is hollow. -/
theorem printsReadably_of_isPlain (hplain : ∀ l ∈ script, l.isPlain = true)
    (hscript : source = String.ofList (Plain.scriptText script)) (hvalid : (request.reading source).succeeded = true) :
    PrintsReadably (Dialect.ofPath request.file) (request.reading source).comments (request.edited source) := by
  subst hscript
  have hdisplays := (Plain.parse_script (Dialect.ofPath request.file) hplain).2 hvalid
  exact (hdisplays.remove hplain).readable_iff (Plain.isPlain_of_mem_left request.goes hplain) _

/-- **A commented script can be read**, if it is plain and requests nothing that goes, unless a line of it is
spoiled. -/
theorem commented_readable_of_isPlain (hplain : ∀ l ∈ script, l.isPlain = true)
    (hpackage : Plain.isRequest request.package = true) (hscript : source = String.ofList (Plain.scriptText script))
    (hvalid : (request.reading source).succeeded = true) (hexposed : ¬request.Exposed source) :
    (request.reading (request.commented source)).succeeded = true ↔
      ∀ l ∈ script, l.spoiled request.package.toList = false := by
  have hwhole := (reading_succeeded_iff hplain hscript).mp hvalid
  subst hscript
  have hdisplays := (Plain.parse_script (Dialect.ofPath request.file) hplain).2 hvalid
  have hunrelated : ∀ l ∈ script, Plain.Unrelated request.package.toList l := fun l hl name hname =>
    goes_eq_false_iff.mp (hdisplays.not_goes hplain hexposed l hl name hname)
  exact (Plain.commented_readable_iff _ hpackage hplain hunrelated).trans (and_iff_right hwhole)

/-! ## 4. What is written -/

/-- **When a forced removal keeps a valid script valid.**  What is written is the edited tree, if the tree of the
script exposes a reference, and the script with statements in comments otherwise.

* A tree that is printed readably, unless an arrow function in it is hollow, can be read again exactly if no
  arrow function of the script loses its expression.
* What is written of a plain script can be read exactly if the tree exposes a reference and no arrow function
  loses its expression, or the tree exposes none and no line is spoiled: no import, and no variable that is set by
  the package, stands in a block comment, and no import goes on behind the end of the string in which it starts. -/
theorem run_force_valid_iff (hforce : request.force = true)
    (haggressive : request.aggressive = false) {m m' : Machine}
    (hsource : m.disk.readSource request.file = .ok source)
    (hvalid : (request.reading source).succeeded = true)
    {strategy : RemovalStrategy} {count before after : Nat}
    (hrun : request.run m = (.ok (.removed strategy count before after), m')) :
    ∃ text, m'.disk.readSource request.file = .ok text ∧
      ((strategy = .structural ∧ request.Exposed source ∧ text = request.printed source) ∨
        (strategy = .commentedOut ∧ ¬request.Exposed source ∧ text = request.commented source)) ∧
      ((request.edited source).anyNode Tree.isHollow = true ↔ request.Hollowed source) ∧
      (PrintsReadably (Dialect.ofPath request.file) (request.reading source).comments
          (request.edited source) → request.Exposed source →
        ((request.reading text).succeeded = true ↔ ¬request.Hollowed source)) ∧
      ∀ script : List Plain.Line, (∀ l ∈ script, l.isPlain = true) → Plain.isRequest request.package = true →
        source = String.ofList (Plain.scriptText script) →
        ((request.reading text).succeeded = true ↔
          (request.Exposed source ∧ ¬request.Hollowed source) ∨
            (¬request.Exposed source ∧ ∀ l ∈ script, l.spoiled request.package.toList = false)) := by
  obtain ⟨result, m₁, hforced, hcases⟩ := runForced_cases request source m
  rw [run_eq_runForced hforce hsource, hforced, Prod.mk.injEq] at hrun
  obtain ⟨rfl, rfl⟩ := hrun
  have hhollow := edited_hollow_iff request source
  rcases hcases with ⟨change, hfirst, houtcome, hread⟩ | ⟨h, -⟩
  · have hstrategy : strategy = change.strategy := by
      simp only [Change.outcome, Except.ok.injEq, RemovalOutcome.removed.injEq] at houtcome
      exact houtcome.1
    refine ⟨change.text, Disk.readSource_eq_ok_iff.mpr ⟨_, hread, decode?_encode _⟩, ?_⟩
    rw [hstrategy]
    rcases first?_of_valid haggressive hvalid hfirst with
      ⟨hway, hexposed, htext⟩ | ⟨hway, hexposed, htext⟩
    · have hprinted (hprints : PrintsReadably (Dialect.ofPath request.file) (request.reading source).comments
          (request.edited source)) : (request.reading change.text).succeeded = true ↔ ¬request.Hollowed source := by
        have hreadable : (request.reading (request.printed source)).succeeded = true ↔
            (request.edited source).anyNode Tree.isHollow = false := hprints
        rw [htext, hreadable, ← Bool.not_eq_true, hhollow]
      refine ⟨.inl ⟨hway, hexposed, htext⟩, hhollow, fun hprints _ => hprinted hprints,
        fun script hplain _ hscript => ?_⟩
      rw [hprinted (printsReadably_of_isPlain hplain hscript hvalid)]
      simp [hexposed]
    · refine ⟨.inr ⟨hway, hexposed, htext⟩, hhollow, fun _ h => absurd h hexposed,
        fun script hplain hpackage hscript => ?_⟩
      rw [htext, commented_readable_of_isPlain hplain hpackage hscript hvalid hexposed]
      simp [hexposed]
  · rcases h with h | ⟨e, h⟩ <;> cases h

namespace Example

/-- A removal with force. -/
def forced : RemovalRequest := { file := "a.js", package := "x", force := true }

/-- A call in the place of an argument goes, and an import in a line comment is put into a comment.  Both times
what is written can be read. -/
theorem calling_valid :
    (∃ text, (forced.run (Machine.holding "a.js" "f(require(\"x\"));\n")).2.disk.readSource "a.js" = .ok text ∧
      (parse (Dialect.ofPath "a.js") text).succeeded = true) ∧
    ∃ text, (forced.run (Machine.holding "a.js" "// import 'x';\nf(a);\n")).2.disk.readSource "a.js" = .ok text ∧
      (parse (Dialect.ofPath "a.js") text).succeeded = true := by
  have hforce : forced.force = true := by decide
  have haggressive : forced.aggressive = false := by decide
  constructor
  · have hrun : forced.run (Machine.holding "a.js" "f(require(\"x\"));\n") = (.ok (.removed .structural 1 17 11),
        (forced.run (Machine.holding "a.js" "f(require(\"x\"));\n")).2) :=
      Prod.fst_eq_iff.mp (by decide +kernel)
    have hscript : "f(require(\"x\"));\n" = String.ofList (Plain.scriptText [.run (.call "f" (.required "x"))]) :=
      rfl
    obtain ⟨text, htext, hway, -, -, hreadable⟩ := run_force_valid_iff hforce haggressive
      (by decide +kernel : (Machine.holding "a.js" "f(require(\"x\"));\n").disk.readSource forced.file =
        .ok "f(require(\"x\"));\n") ((reading_succeeded_iff (by decide) hscript).mpr (by decide)) hrun
    obtain ⟨-, hexposed, -⟩ | ⟨hway, -⟩ := hway
    · exact ⟨text, htext, (hreadable _ (by decide) (by decide) hscript).mpr (.inl ⟨hexposed, by decide +kernel⟩)⟩
    · cases hway
  · have hrun : forced.run (Machine.holding "a.js" "// import 'x';\nf(a);\n") = (.ok (.removed .commentedOut 1 21 36),
        (forced.run (Machine.holding "a.js" "// import 'x';\nf(a);\n")).2) :=
      Prod.fst_eq_iff.mp (by decide +kernel)
    have hscript : "// import 'x';\nf(a);\n" =
        String.ofList (Plain.scriptText [.note " import 'x';", .run (.call "f" (.name "a"))]) := rfl
    obtain ⟨text, htext, hway, -, -, hreadable⟩ := run_force_valid_iff hforce haggressive
      (by decide +kernel : (Machine.holding "a.js" "// import 'x';\nf(a);\n").disk.readSource forced.file =
        .ok "// import 'x';\nf(a);\n") ((reading_succeeded_iff (by decide) hscript).mpr (by decide)) hrun
    obtain ⟨hway, -⟩ | ⟨-, hexposed, -⟩ := hway
    · cases hway
    · exact ⟨text, htext, (hreadable _ (by decide) (by decide) hscript).mpr (.inr ⟨hexposed, by decide +kernel⟩)⟩

/-- The arrow function loses its expression, and nothing can be read any more. -/
theorem arrow_spoiled :
    let m := Machine.holding "a.js" "const f = () => require('x');"
    (parse (Dialect.ofPath "a.js") "const f = () => require('x');").succeeded = true ∧
      (forced.run m).1 = .ok (.removed .structural 1 29 18) ∧
      (forced.run m).2.disk.readSource "a.js" = .ok "const f = () => ;\n" ∧
      (parse (Dialect.ofPath "a.js") "const f = () => ;\n").succeeded = false := by
  decide +kernel

/-- The comment ends inside another, whose own end is then no comment. -/
theorem comment_spoiled :
    let m := Machine.holding "a.js" "/* import 'x' */"
    (parse (Dialect.ofPath "a.js") "/* import 'x' */").succeeded = true ∧
      (forced.run m).1 = .ok (.removed .commentedOut 1 16 31) ∧
      (forced.run m).2.disk.readSource "a.js" = .ok "/* /* removed: import 'x'  */*/" ∧
      (parse (Dialect.ofPath "a.js") "/* /* removed: import 'x'  */*/").succeeded = false := by
  decide +kernel

end Example

end RemovalRequest

end PackageRefs
