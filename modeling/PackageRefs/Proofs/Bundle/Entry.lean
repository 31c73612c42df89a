/-
# An entry says what it was made from

The entry of a bundle is a script with the names of packages in it, and the names are any texts.  Reading
it gives these names back.

* `Before names s` is what is known of the reader before the lines for `names`, and it is all that carries
  over from one line to the next.
* `statement_meets` is one line: it is read as an import of its package alone, or it is given up because
  the name has a line break in it.  `repeatWith_meets` is the induction over the lines.
* `parse_entrySource` is the whole entry, and `entrySource_faithful` says it in terms of the result.

Nothing depends on the dialect.
-/
import Mathlib.Data.List.Forall2
import PackageRefs.Proofs.Bundle.Literal
import PackageRefs.Proofs.Script.Reading
import PackageRefs.Reference.Node
import PackageRefs.Script.Extension

namespace PackageRefs.Bundle

open PackageRefs.Script PackageRefs.Text

variable {name : String} {names : List String} {s : State}

/-! ## 1. The lines of an entry -/

theorem entrySource_nil : (entrySource []).toList = [] := rfl

theorem entrySource_cons (name : String) (names : List String) :
    (entrySource (name :: names)).toList =
      'i' :: 'm' :: 'p' :: 'o' :: 'r' :: 't' :: ' ' :: '\'' ::
        (name.toList.flatMap escapedChar ++ '\'' :: ';' :: '\n' :: (entrySource names).toList) := by
  simp [entrySource, entryLine, escaped, String.join_cons]

theorem length_le_entrySource (names : List String) :
    names.length ≤ (entrySource names).toList.length := by
  induction names with
  | nil => simp
  | cons name names ih =>
    rw [entrySource_cons]
    simp only [List.length_cons, List.length_append]
    omega

/-- The reader stands before the lines that import the packages: the first token of the lines is in hand,
or else the end of the text, and nothing is wrong so far. -/
inductive Before : List String → State → Prop
  | done {s : State} (clean : s.Clean) (token : s.token.lexeme = .endOfText) : Before [] s
  | line {name : String} {names : List String} {s : State} (clean : s.Clean)
      (token : s.token.lexeme = .word "import" false)
      (rest : s.rest = ' ' :: '\'' ::
        (name.toList.flatMap escapedChar ++ '\'' :: ';' :: '\n' :: (entrySource names).toList)) :
      Before (name :: names) s

theorem before_nextOn (fresh : Bool) (hs : s.Clean)
    (hrest : s.rest = (entrySource names).toList ∨ s.rest = '\n' :: (entrySource names).toList) :
    Before names (Parser.nextOn fresh s) := by
  cases names with
  | nil =>
    have hstarts : StartsWith s.rest .endOfText [] [] := by
      rcases hrest with hrest | hrest
      · rw [hrest]
        exact startsWith_nil
      · rw [hrest]
        exact startsWith_lineFeed startsWith_nil
    exact .done (Parser.nextOn_clean fresh hstarts hs) (Parser.nextOn_token fresh hstarts).1
  | cons name names =>
    rw [entrySource_cons] at hrest
    have hstarts : StartsWith s.rest (.word "import" false) (' ' :: '\'' ::
        (name.toList.flatMap escapedChar ++ '\'' :: ';' :: '\n' :: (entrySource names).toList)) [] := by
      rcases hrest with hrest | hrest
      · rw [hrest]
        exact startsWith_import _
      · rw [hrest]
        exact startsWith_lineFeed (startsWith_import _)
    obtain ⟨htoken, hleft⟩ := Parser.nextOn_token fresh hstarts
    exact .line (Parser.nextOn_clean fresh hstarts hs) htoken hleft

theorem Before.clean (h : Before names s) : s.Clean := by
  cases h <;> assumption

theorem Before.atEnd_nil (h : Before [] s) : Parser.atEnd s = .ok true s := by
  obtain ⟨-, htoken⟩ := h
  simp [Parser.atEnd, Parser.read, htoken]

theorem Before.atEnd_cons (h : Before (name :: names) s) : Parser.atEnd s = .ok false s := by
  obtain _ | ⟨-, htoken, -⟩ := h
  simp [Parser.atEnd, Parser.read, htoken]

/-- There is fuel for all lines. -/
theorem Before.length_lt (h : Before names s) : names.length < s.rest.length + 2 := by
  cases h with
  | done => simp
  | @line name names _ _ _ hrest =>
    have hlength := length_le_entrySource names
    rw [hrest]
    simp only [List.length_cons, List.length_append]
    omega

/-! ## 2. One line -/

/-- The statement imports the module for its effect, and nothing else from it. -/
def Imports (name : String) (t : Tree) : Prop :=
  ∃ span sourceSpan, t = .node (.importDeclaration false none) span
    [.absent, .node (.string name false) sourceSpan [], .absent]

theorem statement_of_unbroken (fuel : Nat) (h : Before (name :: names) s)
    (hname : Unbroken name.toList) : ∃ t s',
      Parser.goal (fuel + 1) .statement s = .ok t s' ∧ Imports name t ∧ Before names s' := by
  obtain _ | ⟨hclean, hword, hrest⟩ := h
  -- the literal ends where the name does, so the semicolon and the other lines are behind it
  have hliteral : StartsWith s.rest (.string name false (escaped name))
      (';' :: '\n' :: (entrySource names).toList) [] := by
    rw [hrest]
    refine startsWith_space (startsWith_quote fun pos => ?_)
    simpa [escaped] using readString_escaped hname (';' :: '\n' :: (entrySource names).toList) pos
  obtain ⟨hstring, hbehind⟩ := Parser.nextOn_token false hliteral
  have hsemicolon : StartsWith (Parser.next s).rest (.mark ";")
      ('\n' :: (entrySource names).toList) [] := by
    rw [Parser.next, hbehind]
    exact startsWith_semicolon _
  obtain ⟨hmark, hbehind⟩ := Parser.nextOn_token false hsemicolon
  have hclean : (Parser.next (Parser.next s)).Clean :=
    Parser.nextOn_clean false hsemicolon (Parser.nextOn_clean false hliteral hclean)
  obtain ⟨span, sourceSpan, hread⟩ :=
    Parser.statement_of_import fuel ‹s.Clean› hword hstring hmark
  exact ⟨_, _, hread, ⟨span, sourceSpan, rfl⟩, before_nextOn false hclean (.inr hbehind)⟩

theorem statement_of_not_unbroken (fuel : Nat) (h : Before (name :: names) s)
    (hname : ¬ Unbroken name.toList) :
    ∃ d s', Parser.goal (fuel + 1) .statement s = .fatal d s' := by
  obtain _ | ⟨hclean, hword, hrest⟩ := h
  have hliteral := startsWith_space (startsWith_quote fun pos =>
    readString_of_broken hname ('\'' :: ';' :: '\n' :: (entrySource names).toList) pos)
  rw [← hrest] at hliteral
  obtain ⟨d, hread⟩ :=
    Parser.statement_of_broken fuel hclean hword (Parser.nextOn_token false hliteral).1
  exact ⟨d, _, hread⟩

/-- **A line** is read as the import of its package, and the reader stands before the other lines; or it
is given up because of a line break in the name. -/
theorem statement_meets (fuel : Nat) (h : Before (name :: names) s) :
    (Parser.goal (fuel + 1) .statement s).Meets
      (fun t s' => Unbroken name.toList ∧ Imports name t ∧ Before names s')
      (¬ Unbroken name.toList) := by
  by_cases hname : Unbroken name.toList
  · obtain ⟨t, s', hread, himports, hbefore⟩ := statement_of_unbroken fuel h hname
    rw [hread]
    exact ⟨hname, himports, hbefore⟩
  · obtain ⟨d, s', hread⟩ := statement_of_not_unbroken fuel h hname
    rw [hread]
    exact hname

/-! ## 3. All lines -/

/-- The statements are the imports of the packages, one for each name and in the same order, and none of
the names has a line break. -/
structure ImportsAll (names : List String) (statements : List Tree) : Prop where
  unbroken : ∀ name ∈ names, Unbroken name.toList
  imports : List.Forall₂ Imports names statements

/-- Some name has a line break. -/
def SomeBroken (names : List String) : Prop := ∃ name ∈ names, ¬ Unbroken name.toList

theorem SomeBroken.head (h : ¬ Unbroken name.toList) : SomeBroken (name :: names) :=
  ⟨name, by simp, h⟩

theorem SomeBroken.append_left (names : List String) {more : List String} (h : SomeBroken more) :
    SomeBroken (names ++ more) := by
  obtain ⟨name, hmem, hbroken⟩ := h
  exact ⟨name, List.mem_append_right names hmem, hbroken⟩

theorem ImportsAll.nil : ImportsAll [] [] := ⟨by simp, .nil⟩

theorem ImportsAll.cons {x : Tree} {statements : List Tree} (h : ImportsAll names statements)
    (hname : Unbroken name.toList) (himports : Imports name x) :
    ImportsAll (name :: names) (x :: statements) where
  unbroken := List.forall_mem_cons.mpr ⟨hname, h.unbroken⟩
  imports := .cons himports h.imports

theorem ImportsAll.append {more : List String} {statements others : List Tree}
    (h : ImportsAll names statements) (hmore : ImportsAll more others) :
    ImportsAll (names ++ more) (statements ++ others) where
  unbroken := List.forall_mem_append.mpr ⟨h.unbroken, hmore.unbroken⟩
  imports := List.rel_append h.imports hmore.imports

/-- By induction on the names, each line is one turn of the loop. -/
theorem repeatWith_meets (fuel : Nat) {count : Nat} (hcount : names.length < count)
    (h : Before names s) (seen : List Tree) :
    (Parser.repeatWith (Parser.listItem (Parser.goal (fuel + 1)) Parser.atEnd) count seen s).Meets
      (fun statements s' => ∃ others, statements = seen.reverse ++ others ∧ ImportsAll names others ∧
        s'.Clean)
      (SomeBroken names) := by
  induction names generalizing s seen count with
  | nil =>
    obtain ⟨count, rfl⟩ := Nat.exists_eq_succ_of_ne_zero (Nat.ne_of_gt hcount)
    rw [Parser.repeatWith, Parser.bind_ok (Parser.listItem_of_closed h.atEnd_nil)]
    exact Parser.result_meets ⟨[], by simp, .nil, h.clean⟩
  | cons name names ih =>
    obtain ⟨count, rfl⟩ := Nat.exists_eq_succ_of_ne_zero (Nat.ne_of_gt (Nat.zero_lt_of_lt hcount))
    rw [Parser.repeatWith]
    have hline := Parser.listItem_meets h.atEnd_cons (statement_meets fuel h)
    refine Parser.bind_meets (hline.imp (fun _ _ => id) SomeBroken.head) fun item t hitem => ?_
    obtain ⟨x, rfl, hname, himports, hbefore⟩ := hitem
    refine (ih (Nat.lt_of_succ_lt_succ hcount) hbefore (x :: seen)).imp ?_ (.append_left [name])
    rintro statements s' ⟨others, rfl, hall, hclean⟩
    exact ⟨x :: others, by simp, hall.cons hname himports, hclean⟩

/-! ## 4. The whole entry -/

/-- The first line ends the directives, of which there are none. -/
theorem directiveList_meets (fuel count : Nat) (h : Before names s) :
    (Parser.directiveList (Parser.goal (fuel + 1)) Parser.atEnd (count + 1) [] s).Meets
      (fun parts s' => parts.1 = [] ∧
        ∃ done left, names = done ++ left ∧ ImportsAll done parts.2 ∧ Before left s')
      (SomeBroken names) := by
  cases names with
  | nil =>
    rw [Parser.directiveList_of_closed h.atEnd_nil]
    exact ⟨rfl, [], [], rfl, .nil, h⟩
  | cons name names =>
    have hother : ∀ t s', (Unbroken name.toList ∧ Imports name t ∧ Before names s') →
        ∀ raw, Parser.directive? raw t = none := by
      rintro t s' ⟨-, ⟨span, sourceSpan, rfl⟩, -⟩ raw
      rfl
    refine (Parser.directiveList_meets h.atEnd_cons (statement_meets fuel h) hother).imp ?_ .head
    rintro parts s' ⟨t, rfl, hname, himports, hbefore⟩
    exact ⟨rfl, [name], names, rfl, ImportsAll.nil.cons hname himports, hbefore⟩

/-- The program consists of the imports of the packages. -/
def IsEntry (names : List String) (t : Tree) : Prop :=
  ∃ statements, Parser.IsProgram [] statements t ∧ List.Forall₂ Imports names statements

theorem program_meets (fuel : Nat) (h : Before names s) :
    (Parser.program (Parser.goal (fuel + 1)) none s).Meets
      (fun t s' => s'.Clean ∧ (∀ name ∈ names, Unbroken name.toList) ∧ IsEntry names t)
      (SomeBroken names) := by
  have hread : (Parser.program (Parser.goal (fuel + 1)) none s).Meets
      (fun t s' => ∃ directives statements, Parser.IsProgram directives statements t ∧
        s'.Clean ∧ directives = [] ∧ ImportsAll names statements)
      (SomeBroken names) := by
    -- the first line is read in search of directives, the others are left to the loop
    refine Parser.program_meets (directiveList_meets fuel _ h) fun parts t hparts => ?_
    obtain ⟨hnone, done, left, rfl, hdone, hbefore⟩ := hparts
    have hfuel : Parser.fuel t = .ok (t.rest.length + 2) t := rfl
    rw [Parser.many, Parser.bind_ok hfuel]
    refine (repeatWith_meets fuel hbefore.length_lt hbefore []).imp ?_ (.append_left done)
    rintro statements s' ⟨others, rfl, hothers, hclean⟩
    exact ⟨hclean, hnone, hdone.append hothers⟩
  refine hread.imp ?_ id
  rintro t s' ⟨_, statements, hprogram, hclean, rfl, hall⟩
  exact ⟨hclean, hall.unbroken, statements, hprogram, hall.imports⟩

theorem startsPlainly_entrySource (names : List String) :
    StartsPlainly (entrySource names).toList := by
  cases names with
  | nil => simp [StartsPlainly, entrySource_nil]
  | cons name names => simp [StartsPlainly, entrySource_cons]

/-- Imports export nothing. -/
theorem exportComplaints_of_isEntry {t : Tree} (h : IsEntry names t) : exportComplaints t = [] := by
  obtain ⟨statements, hprogram, himports⟩ := h
  have hstatements : Tree.gatherAll Tree.outwardNames statements = [] ∧
      (Tree.gatherAll (fun t => [t.defaultExports]) statements).foldl (· + ·) 0 = 0 := by
    clear hprogram
    induction himports with
    | nil => exact ⟨rfl, rfl⟩
    | cons himports _ ih =>
      obtain ⟨span, sourceSpan, rfl⟩ := himports
      exact ih
  obtain ⟨span, directivesSpan, statementsSpan, rfl⟩ := hprogram
  have hnames : Tree.gather Tree.outwardNames (.node (.program none) span
      [.node .directives directivesSpan [], .node .statements statementsSpan statements]) = [] :=
    (List.append_nil _).trans hstatements.1
  have hdefaults : (Tree.gather (fun t => [t.defaultExports]) (.node (.program none) span
      [.node .directives directivesSpan [], .node .statements statementsSpan statements])).foldl
        (· + ·) 0 = 0 :=
    (congrArg (List.foldl (· + ·) 0) (List.append_nil _)).trans hstatements.2
  rw [exportComplaints, hnames, hdefaults]
  rfl

theorem references_of_isEntry {t : Tree} (h : IsEntry names t) :
    t.references = names.map (⟨.import, ·⟩) := by
  obtain ⟨statements, ⟨span, directivesSpan, statementsSpan, rfl⟩, himports⟩ := h
  have hin : Tree.referencesIn statements = names.map (⟨.import, ·⟩) := by
    induction himports with
    | nil => rfl
    | cons himports _ ih =>
      obtain ⟨span, sourceSpan, rfl⟩ := himports
      exact congrArg (_ :: ·) ih
  calc _ = Tree.referencesIn statements ++ [] := rfl
    _ = names.map (⟨.import, ·⟩) := by rw [hin, List.append_nil]

/-- **Reading an entry** either gives the imports of the packages and no complaint, or ends at a name with
a line break. -/
theorem parse_entrySource (dialect : Dialect) (names : List String) :
    ((∀ name ∈ names, Unbroken name.toList) ∧ ∃ program comments, IsEntry names program ∧
        parse dialect (entrySource names) = ⟨program, comments, [], false⟩) ∨
      SomeBroken names ∧ (parse dialect (entrySource names)).panicked = true := by
  have hbefore : Before names (State.start dialect (entrySource names).toList 0) :=
    before_nextOn true ⟨rfl, rfl, rfl, rfl, rfl⟩ (.inl rfl)
  -- statements do not nest here, so any positive bound on the nesting would do
  have hprogram := program_meets (16 * (entrySource names).toList.length + 63) hbefore
  rcases parse_meets (startsPlainly_entrySource names) hprogram with
    ⟨program, s, ⟨hnames, hentry⟩, hparse⟩ | ⟨hpanicked, hbroken⟩
  · refine .inl ⟨hnames, program, s.log.toList, hentry, ?_⟩
    rw [hparse, exportComplaints_of_isEntry hentry, ite_self]
  · exact .inr ⟨hbroken, hpanicked⟩

/-- **No name of a package adds code to an entry.**  The entry can be read without complaint exactly if no
name holds a line feed or a carriage return; and what is read then imports each package once for its
effect, in the order of the names, and does nothing else. -/
theorem entrySource_faithful (dialect : Dialect) (names : List String) :
    ((parse dialect (entrySource names)).succeeded = true ↔
        ∀ name ∈ names, '\n' ∉ name.toList ∧ '\r' ∉ name.toList) ∧
      ((parse dialect (entrySource names)).succeeded = true →
        IsEntry names (parse dialect (entrySource names)).program ∧
          (parse dialect (entrySource names)).program.references = names.map (⟨.import, ·⟩)) := by
  rcases parse_entrySource dialect names with
    ⟨hnames, program, comments, hentry, hparse⟩ | ⟨⟨name, hname, hbroken⟩, hpanicked⟩
  · rw [hparse]
    exact ⟨iff_of_true rfl hnames, fun _ => ⟨hentry, references_of_isEntry hentry⟩⟩
  · have hfails : (parse dialect (entrySource names)).succeeded = false := by
      simp [Parsed.succeeded, hpanicked]
    rw [hfails]
    exact ⟨iff_of_false (by simp) fun hnames => hbroken (hnames name hname), fun h => nomatch h⟩

namespace Example

/-- Names that would close their literals if they were not escaped, and an empty one. -/
def awkward : List String := ["it's", "", "'; steal(); import '", "c:\\", "it's"]

/-- Awkward names are read back as they are. -/
theorem awkward_faithful :
    (parse (Dialect.ofPath "entry.js") (entrySource awkward)).succeeded = true ∧
      IsEntry awkward (parse (Dialect.ofPath "entry.js") (entrySource awkward)).program ∧
      (parse (Dialect.ofPath "entry.js") (entrySource awkward)).program.references =
        awkward.map (⟨.import, ·⟩) := by
  have hread : (parse (Dialect.ofPath "entry.js") (entrySource awkward)).succeeded = true := by
    decide +kernel
  exact ⟨hread, (entrySource_faithful (Dialect.ofPath "entry.js") awkward).2 hread⟩

end Example

/-- Entries that import different packages, or the same in another order, are different texts. -/
theorem entrySource_injective {names' : List String}
    (h : ∀ name ∈ names, Unbroken name.toList) (h' : ∀ name ∈ names', Unbroken name.toList)
    (heq : entrySource names = entrySource names') : names = names' := by
  have hread {names : List String} (h : ∀ name ∈ names, Unbroken name.toList) :
      (parse default (entrySource names)).program.references = names.map (⟨.import, ·⟩) := by
    rcases parse_entrySource default names with
      ⟨-, program, comments, hentry, hparse⟩ | ⟨⟨name, hname, hbroken⟩, -⟩
    · rw [hparse]
      exact references_of_isEntry hentry
    · exact absurd (h name hname) hbroken
  have hreferences : names.map (Reference.mk .import) = names'.map (Reference.mk .import) := by
    rw [← hread h, heq, hread h']
  exact List.map_injective_iff.mpr (fun _ _ hsame => (Reference.mk.inj hsame).2) hreferences

end PackageRefs.Bundle
