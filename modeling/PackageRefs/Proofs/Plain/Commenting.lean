/-
# What the searches make of a plain script

A script from which nothing is removed in its tree may still have text that looks like a statement: in comments,
in strings and in templates.  There the searches find it.

**Line by line.**  `Turns` is what can become of a line, and each search keeps it: the search for imports makes it
(`turns_of_plain`), the search for variables goes on from there (`Turns.declarations`), and the search for calls
finds nothing any more (`Turns.statements`).  A line becomes another plain line, or it is spoiled in one of two
ways:

* a block comment in which something is found ends with the comment around it, and its own end is left over
  (`turns_of_find`, `spoiled_shelved_iff`);
* an import that starts in a string and takes the quote behind the string for its own ends behind the string,
  and so does its comment (`turns_quoted`).

So `Line.spoiled` says which lines are spoiled, from the text of the line alone.  In line comments, templates and
strings everything else is harmless, and a call of `require` in a block comment is harmless if it sets no variable.

**The result** (`commented_readable_iff`): what is left can be read exactly if no line is spoiled.
-/
import PackageRefs.Proofs.Plain.Boundary

namespace PackageRefs.Plain

open PackageRefs.Script PackageRefs.Text

section

variable {package text : List Char} {l : Line}

/-! ## 1. What becomes of a line -/

/-- The search for imports leaves behind the line what cannot be read: it finds the text in the quotes of a block
comment, or something that reaches over the end of a string. -/
def Line.spoiledByImport (package : List Char) (l : Line) : Bool :=
  let pieces := segments (importStatement package) l.text
  match l with
  | shelved .. => pieces.any Segment.isFound
  | bound _ (.quoted _) => pieces.getLast?.any Segment.isFound
  | _ => false

/-- The search for variables leaves behind the line what cannot be read: it finds the text in the quotes of a block
comment. -/
def Line.spoiledByDeclaration (package : List Char) : Line → Bool
  | l@(shelved ..) => (segments (requireDeclaration package) l.text).any Segment.isFound
  | _ => false

/-- The searches leave behind the line what cannot be read. -/
def Line.spoiled (package : List Char) (l : Line) : Bool :=
  l.spoiledByImport package || l.spoiledByDeclaration package

/-- What the searches make of a line, which they may spoil; variables have been searched for, or not yet. -/
inductive Turns (package : List Char) (l : Line) (searched : Bool) : Bool → List Char → Prop
  /-- another line -/
  | alive {l' : Line} (plain : l'.isPlain = true) (unrelated : Unrelated package l') (hollow : l'.isHollow = l.isHollow)
      (later : searched = false → l'.spoiledByDeclaration package = l.spoiledByDeclaration package) :
      Turns package l searched false l'.text
  /-- a block comment that ends too soon -/
  | closed {c blanks : List Char} (isOpen : ¬"*/".toList <:+: c) (chars : ∀ d ∈ c, isOrdinary d = true)
      (later : searched = false → '(' ∉ c) (unannotated : Line.isUnannotated c = true)
      (spaces : ∀ d ∈ blanks, d = ' ') :
      Turns package l searched true ('/' :: '*' :: (c ++ '*' :: '/' :: (blanks ++ ['*', '/'])))
  /-- a string that ends before its comment does -/
  | cut {name s : String} (plain : ((Frame.quoted name).line s).isPlain = true) :
      Turns package l searched true (((Frame.quoted name).line s).text ++ removedCloser)

/-- Of the lines in which a search may find something, all but one kind have a text of their own. -/
theorem Line.kinds (hpackage : ∀ c ∈ package, isUnquoted c = true) (hplain : l.isPlain = true)
    (hunrelated : Unrelated package l) :
    (Mute package l.text ∧ l.spoiledByDeclaration package = false) ∨ (∃ f s, l = Frame.line f s) ∨
      ∃ front request back, l = shelved front request back := by
  have hcode (hcode : l.isComment = false) (hliteral : l.isLiteral = false) : Mute package l.text :=
    (told hplain hcode hliteral hunrelated).mute hpackage
  cases l with
  | imported _ | run _ => exact .inl ⟨hcode rfl rfl, rfl⟩
  | bound name value =>
    cases value with
    | quoted t => exact .inr (.inl ⟨.quoted name, t, rfl⟩)
    | template t => exact .inr (.inl ⟨.template name, t, rfl⟩)
    | _ => exact .inl ⟨hcode rfl rfl, rfl⟩
  | note t => exact .inr (.inl ⟨.note, t, rfl⟩)
  | block t =>
    refine .inl ⟨mute_of_free fun c hc => ?_, rfl⟩
    simp only [isPlain, Bool.and_eq_true, List.all_eq_true, bne_iff_ne] at hplain
    simp only [text, List.mem_cons, List.mem_append, List.not_mem_nil, or_false] at hc
    rcases hc with rfl | rfl | hc | rfl | rfl
    · decide
    · decide
    · obtain ⟨⟨-, hdouble⟩, hsingle⟩ := hplain.1 c hc
      simp [isQuote, hdouble, hsingle]
    · decide
    · decide
  | shelved front request back => exact .inr (.inr ⟨front, request, back, rfl⟩)

theorem Frame.spoiledByDeclaration_line (f : Frame) (s : String) (package : List Char) :
    (f.line s).spoiledByDeclaration package = false := by
  cases f <;> rfl

variable {raw : List Char} {searched spoiled : Bool}

theorem exists_text_of_isComment (h : l.isComment = true) : ∃ r, l.text = '/' :: r := by
  cases l with
  | note _ | block _ | shelved _ _ _ => exact ⟨_, rfl⟩
  | imported _ | bound _ _ | run _ => cases h

theorem exists_frame (hplain : l.isPlain = true) (h : l.isLiteral = true) : ∃ name x r, isName name = true ∧
    (x = '"' ∨ x = '\x60') ∧ l.text = bindText name ++ x :: r := by
  cases l with
  | bound name value =>
    have hname : isName name = true := (Bool.and_eq_true_iff.mp hplain).1
    cases value with
    | quoted t => exact ⟨name, '"', t.toList ++ ['"', ';'], hname, .inl rfl, by simp [Line.text, Expr.text, Expr.inQuotes, bindText]⟩
    | template t => exact ⟨name, '\x60', t.toList ++ ['\x60', ';'], hname, .inr rfl, by simp [Line.text, Expr.text, bindText]⟩
    | _ => cases h
  | _ => cases h

theorem Turns.stops (hpackage : ∀ c ∈ package, isUnquoted c = true) (h : Turns package l searched spoiled raw)
    (rest : List Char) : Stops package ('\n' :: (raw ++ '\n' :: rest)) := by
  cases h with
  | @alive l' plain unrelated =>
    cases hcomment : l'.isComment with
    | true =>
      obtain ⟨r, hr⟩ := exists_text_of_isComment hcomment
      rw [hr]
      exact stops_slash _
    | false =>
      cases hliteral : l'.isLiteral with
      | true =>
        obtain ⟨name, x, r, hname, hx, hr⟩ := exists_frame plain hliteral
        rw [hr, List.append_assoc]
        exact stops_literal hname hx _
      | false => exact stops_code hpackage plain hcomment hliteral unrelated rest
  | closed => exact stops_slash _
  | @cut name s plain =>
    have hliteral : ((Frame.quoted name).line s).isLiteral = true := (Bool.and_eq_true_iff.mp plain).2
    obtain ⟨name, x, r, hname, hx, hr⟩ := exists_frame plain hliteral
    rw [hr, List.append_assoc, List.append_assoc]
    exact stops_literal hname hx _

/-! ## 2. What is found in a block comment -/

theorem commentedFrom_of_kept {find : Finder Nat} {before : Option Char}
    (h : segmentsFrom find before 0 text = text.map .kept) : commentedFrom find before text = text := by
  simp [commentedFrom, h, List.flatMap_map, Segment.commentedOut]

theorem any_isFound_of_kept {pieces : List (Segment Nat)} (h : pieces = text.map .kept) :
    pieces.any Segment.isFound = false := by
  subst h
  simp only [List.any_eq_false, List.mem_map]
  rintro _ ⟨c, -, rfl⟩
  simp [Segment.isFound, Segment.value?]

/-- What is left of spaces and a semicolon behind a statement are spaces. -/
theorem afterStatement_of_isClosing {back : List Char} (h : Line.isClosing back = true) :
    ∃ eaten blanks, back = eaten ++ blanks ∧ (∀ c ∈ blanks, c = ' ') ∧ afterStatement back = blanks := by
  have hsplit : back = back.takeWhile (· == ' ') ++ back.dropWhile (· == ' ') := List.takeWhile_append_dropWhile.symm
  have hspaces : ∀ c ∈ back.takeWhile (· == ' '), (c == ' ' || c == '\t') = true := fun c hc => by
    have hspace := List.all_eq_true.mp (List.all_takeWhile (p := (· == ' ')) (l := back)) c hc
    rw [hspace, Bool.true_or]
  have hafter : afterSpaces back = (back.dropWhile (· == ' ')).dropWhile fun c => c == ' ' || c == '\t' := by
    rw [afterSpaces]
    conv_lhs => rw [hsplit]
    exact List.dropWhile_append_of_pos hspaces
  unfold Line.isClosing at h
  split at h
  · rename_i r hr
    rw [hr] at hsplit hafter
    refine ⟨back.takeWhile (· == ' ') ++ [';'], r, by simpa using hsplit, by simpa using h, ?_⟩
    rw [afterStatement, hafter]
    simp
  · rw [List.isEmpty_iff.mp h] at hafter
    exact ⟨back, [], by simp, by simp, by rw [afterStatement, hafter]; rfl⟩

/-- A comment that has been opened needs nothing broken up, if there are no asterisks around its opener. -/
theorem breakTerminators_removed {p s : List Char} (hp : '*' ∉ p) (hs : '*' ∉ s) :
    breakTerminators (p ++ (removedOpener ++ s)) = p ++ (removedOpener ++ s) := by
  have hopener : removedOpener ++ s = ['/'] ++ '*' :: ' ' :: ("removed: ".toList ++ s) := rfl
  have hbehind : '*' ∉ ' ' :: ("removed: ".toList ++ s) := by
    simp only [List.mem_cons, List.mem_append, not_or]
    exact ⟨by decide, by decide, hs⟩
  rw [breakTerminators_append_of_free hp, hopener, breakTerminators_append_of_free (by decide),
    breakTerminators_cons_of_not (by decide), breakTerminators_of_free hbehind]

section

variable {front request back : String} {pre word statement behind : List Char}

/-- What is found in a block comment has the quotes of the comment. -/
theorem exists_of_shelved (hplain : (Line.shelved front request back).isPlain = true) {inner r : List Char} {q d c : Char}
    (hword : word = c :: r) (hc : c ≠ '/' ∧ c ≠ '*') (hq : isQuote q = true) (hd : isQuote d = true)
    (hinner : ∀ x ∈ inner, isUnquoted x = true)
    (h : (Line.shelved front request back).text = pre ++ (word ++ q :: (inner ++ d :: behind))) :
    ∃ p, pre = '/' :: '*' :: p ∧ front.toList = p ++ word ∧ q :: (inner ++ [d]) = Expr.inQuotes request.toList ∧
      behind = back.toList ++ ['*', '/'] := by
  simp only [Line.isPlain, Bool.and_eq_true, List.all_eq_true, bne_iff_ne] at hplain
  obtain ⟨⟨⟨hfront, -⟩, hrequest⟩, hback⟩ := hplain
  have hopening : ∀ c ∈ '/' :: '*' :: front.toList, isQuote c = false := by
    simp only [List.mem_cons, forall_eq_or_imp]
    refine ⟨by decide, by decide, fun c hc => ?_⟩
    obtain ⟨⟨-, hdouble⟩, hsingle⟩ := hfront c hc
    simp [isQuote, hdouble, hsingle]
  have hclosing : ∀ c ∈ back.toList ++ ['*', '/'], isQuote c = false := by
    intro c hc
    rcases List.mem_append.mp hc with hc | hc
    · rcases Line.mem_of_isAround hback hc with rfl | rfl | rfl <;> decide
    · exact isQuote_of_all (by decide) c hc
  have htext : (pre ++ word) ++ q :: (inner ++ d :: behind) =
      ('/' :: '*' :: front.toList) ++ '"' :: (request.toList ++ '"' :: (back.toList ++ ['*', '/'])) := by
    simpa [Line.text, Expr.inQuotes] using h.symm
  obtain ⟨hfound, rfl, rfl, rfl, rfl⟩ := eq_of_quoted hopening
    (fun c hc => isQuote_of_isRequestChar (List.all_eq_true.mp hrequest c hc)) hclosing hq hd hinner htext
  -- the comment's mark is no part of what is found
  subst hword
  rcases pre with _ | ⟨x, _ | ⟨y, p⟩⟩
  · exact absurd (List.cons.inj hfound).1 hc.1
  · exact absurd (List.cons.inj (List.cons.inj hfound).2).1 hc.2
  · obtain ⟨rfl, htail⟩ := List.cons.inj hfound
    obtain ⟨rfl, hp⟩ := List.cons.inj htail
    exact ⟨p, rfl, hp.symm, rfl, rfl⟩

/-- An import in a block comment stands before a text without parentheses. -/
theorem exists_import_of_shelved (hplain : (Line.shelved front request back).isPlain = true)
    (himport : IsImport package statement) (h : (Line.shelved front request back).text = pre ++ (statement ++ behind)) :
    ∃ p word, pre = '/' :: '*' :: p ∧ front.toList = p ++ word ∧ statement = word ++ Expr.inQuotes request.toList ∧
      '(' ∉ front.toList ∧ Line.isClosing back.toList = true ∧ behind = back.toList ++ ['*', '/'] := by
  cases himport with
  | @intro names inner q d hnames _ hq hd hinner _ =>
    have hword : "import".toList ++ names = 'i' :: ("mport".toList ++ names) := rfl
    obtain ⟨p, hpre, hfront, hstring, hbehind⟩ := exists_of_shelved hplain hword (by decide) hq hd hinner (by simpa using h)
    have hstatement : "import".toList ++ (names ++ q :: (inner ++ [d])) =
        ("import".toList ++ names) ++ Expr.inQuotes request.toList := by
      rw [hstring, List.append_assoc]
    have haround : Line.isAround front.toList back.toList = true := (Bool.and_eq_true_iff.mp hplain).2
    rcases Line.isAround_iff.mp haround with ⟨f, b, hopening, -, -⟩ | ⟨hfree, hclosing⟩
    · -- there is no parenthesis between the word and the quotes
      have hlast : ("import".toList ++ names).getLast? = some '(' := by
        have hsame := congrArg List.getLast? (hfront.symm.trans hopening)
        rwa [List.getLast?_append, List.getLast?_concat, hword, List.getLast?_cons, Option.some_or, ← List.getLast?_cons,
          ← hword] at hsame
      rcases List.mem_append.mp (List.mem_of_getLast? hlast) with hmem | hmem
      · exact absurd hmem (by decide)
      · exact absurd (hnames _ hmem) (by decide)
    · exact ⟨p, _, hpre, hfront, hstatement, hfree, hclosing, hbehind⟩

/-- A variable in a block comment is set by a call whose parentheses stand around the quotes. -/
theorem exists_declaration_of_shelved (hplain : (Line.shelved front request back).isPlain = true)
    (hdeclaration : IsDeclaration package statement)
    (h : (Line.shelved front request back).text = pre ++ (statement ++ behind)) :
    ∃ p word b, pre = '/' :: '*' :: p ∧ front.toList = p ++ word ∧
      statement = word ++ (Expr.inQuotes request.toList ++ [')']) ∧ back.toList = ')' :: b ∧
      Line.isClosing b = true ∧ behind = b ++ ['*', '/'] := by
  cases hdeclaration with
  | @intro w targets blanks _ hw _ _ _ _ hcall =>
    cases hcall with
    | @intro a z inner e q d _ _ hq hd hinner _ he =>
      obtain ⟨c, r, rfl, hc⟩ : ∃ c r, w = c :: r ∧ c ≠ '/' ∧ c ≠ '*' := by
        simp only [declaringWords, List.mem_cons, List.not_mem_nil, or_false] at hw
        rcases hw with rfl | rfl | rfl <;> exact ⟨_, _, rfl, by decide⟩
      generalize hword : (c :: r) ++ (targets ++ '=' :: (blanks ++ ("require".toList ++ (a ++ '(' :: z)))) = word
      have hopening : '(' ∈ word := by
        rw [← hword]
        simp
      have hstatement : (c :: r) ++ (targets ++ '=' :: (blanks ++ ("require".toList ++
          (a ++ '(' :: (z ++ q :: (inner ++ d :: (e ++ [')']))))))) = word ++ (q :: (inner ++ [d]) ++ (e ++ [')'])) := by
        rw [← hword]
        simp
      rw [hstatement] at h ⊢
      have htext : (Line.shelved front request back).text = pre ++ (word ++ q :: (inner ++ d :: (e ++ ')' :: behind))) := by
        simpa using h
      obtain ⟨p, hpre, hfront, hstring, hbehind⟩ := exists_of_shelved hplain hword.symm hc hq hd hinner htext
      have haround : Line.isAround front.toList back.toList = true := (Bool.and_eq_true_iff.mp hplain).2
      rcases Line.isAround_iff.mp haround with ⟨f, b, -, hback, hclosing⟩ | ⟨hfree, -⟩
      · rw [hback] at hbehind
        cases e with
        | nil => exact ⟨p, word, b, hpre, hfront, by rw [hstring]; rfl, hback, hclosing, (List.cons.inj hbehind).2⟩
        | cons x e =>
          obtain rfl := (List.cons.inj hbehind).1
          exact absurd (he ')' (List.mem_cons_self ..)) (by decide)
      · exact absurd (hfront ▸ List.mem_append_right p hopening) hfree

/-- A find goes up to the spaces before the end of the comment. -/
theorem exists_eaten {b s rest : List Char} (hb : Line.isClosing b = true)
    (hsplit : s ++ rest = statement ++ (b ++ ['*', '/']))
    (hlength : s.length = (s ++ rest).length - (afterStatement (b ++ ['*', '/'])).length) :
    ∃ eaten blanks, b = eaten ++ blanks ∧ (∀ c ∈ blanks, c = ' ') ∧ s = statement ++ eaten ∧
      rest = blanks ++ ['*', '/'] := by
  obtain ⟨eaten, blanks, rfl, hblanks, hafter⟩ := afterStatement_of_isClosing hb
  rw [afterStatement_append (by decide), hafter, hsplit] at hlength
  obtain ⟨rfl, rfl⟩ := List.append_inj (by simpa using hsplit : s ++ rest = (statement ++ eaten) ++ (blanks ++ ['*', '/']))
    (by
      rw [hlength]
      simp only [List.length_append, List.length_cons, List.length_nil]
      omega)
  exact ⟨eaten, blanks, rfl, hblanks, rfl, rfl⟩

/-- **A block comment in which something is found** ends behind it. -/
theorem turns_of_find {find : Finder Nat} {before : Option Char} {searched : Bool} {p s blanks : List Char}
    (hplain : (Line.shelved front request back).isPlain = true) (hfront : front.toList = p ++ word)
    (hinner : (Line.shelved front request back).inner = p ++ (s ++ blanks)) (hblanks : ∀ d ∈ blanks, d = ' ')
    (hfree : searched = false → '(' ∉ p ++ s)
    (hnothing : ∀ before t, t <:+ blanks ++ ['*', '/'] → find before t = none)
    (hsearch : segmentsFrom find before 0 (Line.shelved front request back).text = ('/' :: '*' :: p).map Segment.kept ++
      Segment.found 0 s :: segmentsFrom find s.getLast? 0 (blanks ++ ['*', '/'])) :
    Turns package l searched true (commentedFrom find before (Line.shelved front request back).text) := by
  have hchars : ∀ c ∈ p ++ s, isOrdinary c = true ∧ c ≠ '*' := by
    intro c hc
    have hmem : c ∈ (Line.shelved front request back).inner := by
      rw [hinner, ← List.append_assoc]
      exact List.mem_append_left _ hc
    have hboth := Line.isInner_of_mem_inner rfl hplain hmem
    exact ⟨hboth.1, hboth.2 rfl⟩
  have hp : '*' ∉ p := fun h => (hchars '*' (List.mem_append_left s h)).2 rfl
  have hs : '*' ∉ s := fun h => (hchars '*' (List.mem_append_right p h)).2 rfl
  have hcloser : removedCloser = [' ', '*', '/'] := rfl
  have hraw : commentedFrom find before (Line.shelved front request back).text =
      '/' :: '*' :: ((p ++ (removedOpener ++ (s ++ [' ']))) ++ '*' :: '/' :: (blanks ++ ['*', '/'])) := by
    rw [commentedFrom, hsearch, segmentsFrom_of_nothing hnothing]
    simp [List.flatMap_map, Segment.commentedOut, breakTerminators_of_free hs, hcloser]
  have hcontent : Line.isUnannotated (p ++ word) = true := by
    simp only [Line.isPlain, Bool.and_eq_true] at hplain
    exact hfront ▸ hplain.1.1.2
  rw [hraw]
  refine .closed ?_ (fun c hc => ?_) (fun h hc => ?_) (isUnannotated_append hcontent (by decide) _) hblanks
  · have hbehind : '*' ∉ s ++ [' '] := by
      simpa using hs
    rw [← breakTerminators_removed hp hbehind]
    exact not_infix_breakTerminators _
  · simp only [List.mem_append, List.mem_singleton] at hc
    rcases hc with hc | hc | hc | rfl
    · exact (hchars c (List.mem_append_left s hc)).1
    · have hall : removedOpener.all isOrdinary = true := by decide
      exact List.all_eq_true.mp hall c hc
    · exact (hchars c (List.mem_append_right p hc)).1
    · decide
  · have hopener : '(' ∉ removedOpener := by decide
    have hboth := hfree h
    simp only [List.mem_append, List.mem_singleton, not_or] at hc hboth
    rcases hc with hc | hc | hc | hc
    · exact hboth.1 hc
    · exact hopener hc
    · exact hboth.2 hc
    · cases hc

theorem mute_of_spaces {blanks : List Char} (h : ∀ d ∈ blanks, d = ' ') : Mute package (blanks ++ ['*', '/']) := by
  refine mute_of_free fun c hc => ?_
  rcases List.mem_append.mp hc with hc | hc
  · rw [h c hc]
    decide
  · exact isQuote_of_all (by decide) c hc

end

/-! ## 3. The search for imports -/

theorem spoiledByImport_eq_false (h : segments (importStatement package) l.text = l.text.map .kept) :
    l.spoiledByImport package = false := by
  have hnone : (l.text.map Segment.kept).any (Segment.isFound (α := Nat)) = false := any_isFound_of_kept rfl
  have hlast : (l.text.map (Segment.kept : Char → Segment Nat)).getLast?.any Segment.isFound = false := by
    cases hlast : (l.text.map (Segment.kept : Char → Segment Nat)).getLast? with
    | none => rfl
    | some p => simpa using List.any_eq_false.mp hnone p (List.mem_of_getLast? hlast)
  unfold Line.spoiledByImport
  rw [h]
  split
  · exact hnone
  · exact hlast
  · rfl

/-- A string in which imports are found. -/
theorem turns_quoted (hpackage : ∀ c ∈ package, isUnquoted c = true) {name s : String}
    (hplain : ((Frame.quoted name).line s).isPlain = true) :
    Turns package ((Frame.quoted name).line s) false (((Frame.quoted name).line s).spoiledByImport package)
      (commentedFrom (importStatement package) none ((Frame.quoted name).line s).text) := by
  have hstops : Stops package ['"', ';'] :=
    Frame.stops_back hpackage hplain (fun h => by cases h) (@unclosed_of_free [] (by simp))
  have hends : ∀ before t a n, t <:+ s.toList → t ≠ [] → importStatement package before (t ++ ['"', ';']) = some (a, n) →
      n ≤ t.length ∨ n = (t ++ ['"', ';']).length := by
    intro before t a n _ _ hfound
    rcases (hstops.importStatement_iff hpackage).mp hfound with hfound | ⟨-, -, d, behind, -, hback, -, hn⟩
    · exact .inl (importStatement_advances before t a n hfound).2
    · obtain ⟨-, rfl⟩ := List.cons.inj hback
      exact .inr hn
  have hfront := @segmentsFrom_append_of_nothing _ _ none _ (s.toList ++ ['"', ';'])
    fun before t ht hne => (Frame.nothing_before hpackage hplain ht hne before _).1
  have hspoiled : ((Frame.quoted name).line s).spoiledByImport package =
      (segments (importStatement package) ((Frame.quoted name).line s).text).getLast?.any Segment.isFound := rfl
  rw [hspoiled, commentedFrom, segments, Frame.text_line, show (Frame.quoted name).back = ['"', ';'] from rfl, hfront]
  generalize ((Frame.quoted name).front.getLast?.or none) = before
  rcases segmentsFrom_append importStatement_advances hends before with
    ⟨pieces, before', hpieces, hsearch⟩ | ⟨pieces, a, t, ht, hpieces, ⟨before', hfound⟩, hsearch⟩
  · have hback : segmentsFrom (importStatement package) before' 0 ['"', ';'] = [.kept '"', .kept ';'] := by
      rw [segmentsFrom_kept (importStatement_eq_none (by decide) ..),
        segmentsFrom_kept (importStatement_eq_none (by decide) ..), segmentsFrom_nil]
    have hraw : ((Frame.quoted name).front.map Segment.kept ++ (pieces ++ [Segment.kept '"', Segment.kept ';'])).flatMap
        Segment.commentedOut = ((Frame.quoted name).line (String.ofList (pieces.flatMap Segment.commentedOut))).text := by
      simp [Frame.text_line, List.flatMap_map, Segment.commentedOut, Frame.back]
    have hlast : ((Frame.quoted name).front.map Segment.kept ++ (pieces ++ [Segment.kept '"', Segment.kept ';'])).getLast?.any
        Segment.isFound = false := by
      simp [Segment.isFound, Segment.value?]
    rw [hsearch, hback, hraw, hlast]
    exact .alive (Frame.isPlain_line hplain ⟨pieces, hpieces, rfl⟩) (Frame.unrelated_line _ _)
      ((Frame.isHollow_line ..).trans (Frame.isHollow_line ..).symm) fun _ => rfl
  · obtain ⟨-, rfl, -⟩ := (importStatement_eq_some_iff hpackage).mp hfound
    have hbroken : breakTerminators (t ++ ['"', ';']) = breakTerminators t ++ ['"', ';'] :=
      breakTerminators_append (by decide) t [';']
    have hraw : ((Frame.quoted name).front.map Segment.kept ++ (pieces ++ [Segment.found 0 (t ++ ['"', ';'])])).flatMap
        Segment.commentedOut = ((Frame.quoted name).line (String.ofList (pieces.flatMap Segment.commentedOut ++
          (removedOpener ++ breakTerminators t)))).text ++ removedCloser := by
      simp [Frame.text_line, List.flatMap_map, Segment.commentedOut, Frame.back, hbroken]
    have hlast : ((Frame.quoted name).front.map Segment.kept ++ (pieces ++ [Segment.found 0 (t ++ ['"', ';'])])).getLast?.any
        Segment.isFound = true := by
      simp [Segment.isFound, Segment.value?]
    rw [hsearch, hraw, hlast]
    refine .cut ?_
    have hwhole : ((Frame.quoted name).line (String.ofList (pieces.flatMap Segment.commentedOut ++
        (removedOpener ++ breakTerminators t) ++ removedCloser))).isPlain = true := by
      refine Frame.isPlain_line hplain ⟨pieces ++ [.found 0 t], ?_, ?_⟩
      · rw [List.flatMap_append, hpieces.symm]
        simp [Segment.text]
      · simp [Segment.commentedOut]
    have hboth : isName name = true ∧ ∀ c ∈ pieces.flatMap Segment.commentedOut ++
        (removedOpener ++ breakTerminators t) ++ removedCloser, isOrdinary c = true ∧ c ≠ '"' := by
      simpa only [Frame.line, Line.isPlain, Expr.isCode, Expr.isLiteral, Bool.false_or, Bool.and_eq_true,
        String.toList_ofList, List.all_eq_true, bne_iff_ne] using hwhole
    simp only [Frame.line, Line.isPlain, Expr.isCode, Expr.isLiteral, Bool.false_or, Bool.and_eq_true,
        String.toList_ofList, List.all_eq_true, bne_iff_ne]
    exact ⟨hboth.1, fun c hc => hboth.2 c (List.mem_append_left _ hc)⟩

/-- A block comment in which imports are looked for. -/
theorem turns_shelved (hpackage : ∀ c ∈ package, isUnquoted c = true) {front request back : String}
    (hplain : (Line.shelved front request back).isPlain = true) :
    Turns package (.shelved front request back) false ((Line.shelved front request back).spoiledByImport package)
      (commentedFrom (importStatement package) none (Line.shelved front request back).text) := by
  rcases exists_first_find importStatement_advances none (Line.shelved front request back).text with
    hkept | ⟨pre, a, s, rest, htext, hs, hfound, hsearch⟩
  · rw [commentedFrom_of_kept hkept, spoiledByImport_eq_false hkept]
    exact .alive hplain (by simp [Unrelated, Line.requests]) rfl fun _ => rfl
  obtain ⟨-, rfl, statement, behind, hsplit, himport, hlength⟩ := (importStatement_eq_some_iff hpackage).mp hfound
  obtain ⟨p, word, rfl, hfront, rfl, hfree, hclosing, rfl⟩ := exists_import_of_shelved hplain himport (hsplit ▸ htext)
  obtain ⟨eaten, blanks, hback, hblanks, rfl, rfl⟩ := exists_eaten hclosing hsplit hlength
  have hspoiled : (Line.shelved front request back).spoiledByImport package = true := by
    simp only [Line.spoiledByImport, segments, hsearch]
    simp [Segment.isFound, Segment.value?]
  rw [hspoiled]
  refine turns_of_find hplain hfront (by simp [Line.inner, hfront, hback]) hblanks (fun _ hmem => ?_)
    (fun before t ht => importStatement_of_mute hpackage (mute_of_spaces hblanks) ht before) hsearch
  simp only [Line.isPlain, Bool.and_eq_true] at hplain
  simp only [Expr.inQuotes, List.mem_append, List.mem_cons, List.not_mem_nil, or_false] at hmem
  rcases hmem with h | (h | h | h | h) | h
  · exact hfree (hfront ▸ List.mem_append_left word h)
  · exact hfree (hfront ▸ List.mem_append_right p h)
  · cases h
  · exact absurd (List.all_eq_true.mp hplain.1.2 '(' h) (by decide)
  · cases h
  · rcases Line.mem_of_isClosing hclosing (hback ▸ List.mem_append_left blanks h) with h | h <;> cases h

/-- **A search for imports** spoils a line or leaves another one. -/
theorem turns_of_plain (hpackage : ∀ c ∈ package, isUnquoted c = true) (hplain : l.isPlain = true)
    (hunrelated : Unrelated package l) :
    Turns package l false (l.spoiledByImport package) (commentedFrom (importStatement package) none l.text) := by
  rcases Line.kinds hpackage hplain hunrelated with ⟨hmute, -⟩ | ⟨f, s, rfl⟩ | ⟨front, request, back, rfl⟩
  · have hkept : segments (importStatement package) l.text = l.text.map .kept :=
      segmentsFrom_of_nothing (fun before t ht => importStatement_of_mute hpackage hmute ht before) none
    rw [commentedFrom_of_kept hkept, spoiledByImport_eq_false hkept]
    exact .alive hplain hunrelated rfl fun _ => rfl
  · have hstops : Stops package (f.back ++ []) :=
      Frame.stops_back hpackage hplain (fun _ => stops_nil) (unclosed_of_free (by simp))
    -- without a quote behind the text, every find ends with it
    have hframe (hquote : ∀ d v, f.back = d :: v → isQuote d = false) : Turns package (f.line s) false false
        (commentedFrom (importStatement package) none (f.line s).text) := by
      obtain ⟨T', before', hreworked, hsearch⟩ := @Frame.commentedFrom_line f [] s _ importStatement_advances
        (fun before t r ht hne => (Frame.nothing_before hpackage hplain ht hne before r).1)
        (fun before t a n _ _ hfound => by
          rcases (hstops.importStatement_iff hpackage).mp hfound with h | ⟨-, -, d, behind, hd, hback, -⟩
          · exact (importStatement_advances before t a n h).2
          · rw [hquote d behind (by simpa using hback)] at hd
            cases hd)
        (fun before t r ht hne => (Frame.nothing_behind hplain ht hne before r).1) none
      rw [List.append_nil] at hsearch
      rw [hsearch, commentedFrom_nil importStatement_advances, List.append_nil]
      exact .alive (f.isPlain_line hplain hreworked) (f.unrelated_line _) ((f.isHollow_line _).trans (f.isHollow_line s).symm)
        fun _ => (f.spoiledByDeclaration_line ..).trans (f.spoiledByDeclaration_line ..).symm
    cases f with
    | note => exact hframe (by simp [Frame.back])
    | quoted name => exact turns_quoted hpackage hplain
    | template name =>
      refine hframe fun d v h => ?_
      obtain ⟨rfl, -⟩ := List.cons.inj h
      decide
  · exact turns_shelved hpackage hplain

/-! ## 4. The search for variables -/

/-- A block comment in which variables are looked for. -/
theorem declared_shelved (hpackage : ∀ c ∈ package, isUnquoted c = true) {front request back : String}
    (hplain : (Line.shelved front request back).isPlain = true) (before : Option Char) :
    ((Line.shelved front request back).spoiledByDeclaration package = false ∧
        commentedFrom (requireDeclaration package) before (Line.shelved front request back).text =
          (Line.shelved front request back).text) ∨
      ((Line.shelved front request back).spoiledByDeclaration package = true ∧
        Turns package l true true
          (commentedFrom (requireDeclaration package) before (Line.shelved front request back).text)) := by
  -- the character before the comment makes no difference
  have hsame : (Line.shelved front request back).spoiledByDeclaration package =
      (segmentsFrom (requireDeclaration package) before 0 (Line.shelved front request back).text).any Segment.isFound := by
    rw [Line.text_of_isComment rfl rfl, segmentsFrom_kept (requireDeclaration_eq_none (by decide) before _)]
    simp only [Line.spoiledByDeclaration, segments]
    rw [Line.text_of_isComment rfl rfl, segmentsFrom_kept (requireDeclaration_eq_none (by decide) none _)]
  rcases exists_first_find requireDeclaration_advances before (Line.shelved front request back).text with
    hkept | ⟨pre, a, s, rest, htext, hs, hfound, hsearch⟩
  · exact .inl ⟨hsame.trans (any_isFound_of_kept hkept), commentedFrom_of_kept hkept⟩
  obtain ⟨-, rfl, statement, behind, hsplit, hdeclaration, hlength⟩ := (requireDeclaration_eq_some_iff hpackage).mp hfound
  obtain ⟨p, word, b, rfl, hfront, rfl, hback, hclosing, rfl⟩ :=
    exists_declaration_of_shelved hplain hdeclaration (hsplit ▸ htext)
  obtain ⟨eaten, blanks, rfl, hblanks, rfl, rfl⟩ := exists_eaten hclosing hsplit hlength
  refine .inr ⟨?_, turns_of_find hplain hfront (by simp [Line.inner, hfront, hback]) hblanks (fun h => by cases h)
    (fun before t ht => ?_) hsearch⟩
  · rw [hsame, hsearch]
    simp [Segment.isFound, Segment.value?]
  · exact requireDeclaration_of_mute hpackage (mute_of_spaces hblanks) ht before

/-- **A search for variables** spoils a line, or leaves of it what the search before could have left. -/
theorem Turns.declarations (hpackage : ∀ c ∈ package, isUnquoted c = true) (h : Turns package l false spoiled raw)
    (before : Option Char) : Turns package l true (spoiled || l.spoiledByDeclaration package)
      (commentedFrom (requireDeclaration package) before raw) := by
  -- a line in which nothing is found
  have hnothing {raw : List Char} (hnone : ∀ before t, t <:+ raw → requireDeclaration package before t = none) :
      commentedFrom (requireDeclaration package) before raw = raw :=
    commentedFrom_of_kept (segmentsFrom_of_nothing hnone before)
  -- a line with a text of its own, and what stands behind it
  have hframe {f : Frame} {s : String} (hplain : (f.line s).isPlain = true) {more : List Char}
      (hmore : f = .note → Stops package more) (hunclosed : Unclosed more) (before : Option Char) :
      ∃ T' before', Reworked s.toList T' ∧ commentedFrom (requireDeclaration package) before ((f.line s).text ++ more) =
        (f.line (String.ofList T')).text ++ commentedFrom (requireDeclaration package) before' more :=
    Frame.commentedFrom_line requireDeclaration_advances
      (fun before t r ht hne => (Frame.nothing_before hpackage hplain ht hne before r).2)
      (fun before t a n _ _ hfound => by
        rw [(Frame.stops_back hpackage hplain hmore hunclosed).requireDeclaration_eq hpackage] at hfound
        exact (requireDeclaration_advances before t a n hfound).2)
      (fun before t r ht hne => (Frame.nothing_behind hplain ht hne before r).2) before
  cases h with
  | @alive l' plain unrelated hollow later =>
    rw [Bool.false_or, ← later rfl]
    rcases Line.kinds hpackage plain unrelated with ⟨hmute, hunspoiled⟩ | ⟨f, s, rfl⟩ | ⟨front, request, back, rfl⟩
    · rw [hunspoiled, hnothing fun before t ht => requireDeclaration_of_mute hpackage hmute ht before]
      exact .alive plain unrelated hollow fun h => by cases h
    · obtain ⟨T', before', hreworked, hsearch⟩ := hframe plain (fun _ => stops_nil) (@unclosed_of_free [] (by simp)) before
      rw [List.append_nil, commentedFrom_nil requireDeclaration_advances, List.append_nil] at hsearch
      rw [hsearch, f.spoiledByDeclaration_line]
      exact .alive (f.isPlain_line plain hreworked) (f.unrelated_line _)
        (((f.isHollow_line _).trans (f.isHollow_line s).symm).trans hollow) fun h => by cases h
    · rcases declared_shelved hpackage plain before with ⟨hunspoiled, hsearch⟩ | ⟨hspoiled, hturns⟩
      · rw [hunspoiled, hsearch]
        exact .alive plain unrelated hollow fun h => by cases h
      · rw [hspoiled]
        exact hturns
  | @closed c blanks isOpen chars later unannotated spaces =>
    have hfree : '(' ∉ '/' :: '*' :: (c ++ '*' :: '/' :: (blanks ++ ['*', '/'])) := by
      intro hmem
      simp only [List.mem_cons, List.mem_append, List.not_mem_nil, or_false] at hmem
      rcases hmem with h | h | h | h | h | h | h | h
      · cases h
      · cases h
      · exact later rfl h
      · cases h
      · cases h
      · cases spaces '(' h
      · cases h
      · cases h
    rw [Bool.true_or, hnothing fun before t ht => requireDeclaration_of_free hpackage hfree ht before]
    exact .closed isOpen chars (fun h => by cases h) unannotated spaces
  | @cut name s plain =>
    have hquote : ∀ c ∈ removedCloser, isQuote c = false := isQuote_of_all (by decide)
    obtain ⟨T', before', hreworked, hsearch⟩ := hframe plain (fun h => by cases h) (unclosed_of_free hquote) before
    have hcloser : commentedFrom (requireDeclaration package) before' removedCloser = removedCloser :=
      commentedFrom_of_kept (segmentsFrom_of_nothing
        (fun before t ht => requireDeclaration_of_mute hpackage (mute_of_free hquote) ht before) before')
    rw [Bool.true_or, hsearch, hcloser]
    exact .cut (Frame.isPlain_line plain hreworked)

/-! ## 5. Which comments are spoiled -/

theorem startsWord_behind_mark (p : List Char) : startsWord ('/' :: '*' :: p).getLast? = startsWord p.getLast? := by
  rw [List.getLast?_cons_cons, List.getLast?_cons]
  cases p.getLast? <;> rfl

section

variable {front request back : String}

theorem spoiledByImport_shelved_iff (hpackage : ∀ c ∈ package, isUnquoted c = true)
    (hplain : (Line.shelved front request back).isPlain = true) :
    (Line.shelved front request back).spoiledByImport package = true ↔ ∃ p word, front.toList = p ++ word ∧
      startsWord p.getLast? = true ∧ IsImport package (word ++ Expr.inQuotes request.toList) := by
  have hspoiled : (Line.shelved front request back).spoiledByImport package =
      (segments (importStatement package) (Line.shelved front request back).text).any Segment.isFound := rfl
  rw [hspoiled, any_isFound_segments_iff importStatement_advances]
  constructor
  · rintro ⟨pre, rest, htext, hsome⟩
    obtain ⟨⟨lead, n⟩, hfound⟩ := Option.isSome_iff_exists.mp hsome
    obtain ⟨hstarts, -, statement, behind, rfl, himport, -⟩ := (importStatement_eq_some_iff hpackage).mp hfound
    obtain ⟨p, word, rfl, hfront, rfl, -⟩ := exists_import_of_shelved hplain himport htext
    exact ⟨p, word, hfront, startsWord_behind_mark p ▸ hstarts, himport⟩
  · rintro ⟨p, word, hfront, hstarts, himport⟩
    refine ⟨'/' :: '*' :: p, word ++ Expr.inQuotes request.toList ++ (back.toList ++ ['*', '/']),
      by simp [Line.text, hfront], Option.isSome_iff_exists.mpr ⟨(0, _), (importStatement_eq_some_iff hpackage).mpr
        ⟨(startsWord_behind_mark p).trans hstarts, rfl, _, _, rfl, himport, rfl⟩⟩⟩

theorem spoiledByDeclaration_shelved_iff (hpackage : ∀ c ∈ package, isUnquoted c = true)
    (hplain : (Line.shelved front request back).isPlain = true) :
    (Line.shelved front request back).spoiledByDeclaration package = true ↔ ∃ p word b, front.toList = p ++ word ∧
      back.toList = ')' :: b ∧ startsWord p.getLast? = true ∧
        IsDeclaration package (word ++ (Expr.inQuotes request.toList ++ [')'])) := by
  have hspoiled : (Line.shelved front request back).spoiledByDeclaration package =
      (segments (requireDeclaration package) (Line.shelved front request back).text).any Segment.isFound := rfl
  rw [hspoiled, any_isFound_segments_iff requireDeclaration_advances]
  constructor
  · rintro ⟨pre, rest, htext, hsome⟩
    obtain ⟨⟨lead, n⟩, hfound⟩ := Option.isSome_iff_exists.mp hsome
    obtain ⟨hstarts, -, statement, behind, rfl, hdeclaration, -⟩ := (requireDeclaration_eq_some_iff hpackage).mp hfound
    obtain ⟨p, word, b, rfl, hfront, rfl, hback, -⟩ := exists_declaration_of_shelved hplain hdeclaration htext
    exact ⟨p, word, b, hfront, hback, startsWord_behind_mark p ▸ hstarts, hdeclaration⟩
  · rintro ⟨p, word, b, hfront, hback, hstarts, hdeclaration⟩
    refine ⟨'/' :: '*' :: p, word ++ (Expr.inQuotes request.toList ++ [')']) ++ (b ++ ['*', '/']),
      by simp [Line.text, hfront, hback], Option.isSome_iff_exists.mpr ⟨(0, _),
        (requireDeclaration_eq_some_iff hpackage).mpr
          ⟨(startsWord_behind_mark p).trans hstarts, rfl, _, _, rfl, hdeclaration, rfl⟩⟩⟩

/-- **A block comment is spoiled** exactly if its string is that of an import of the package, or of a variable that
is set by the package. -/
theorem spoiled_shelved_iff (hpackage : ∀ c ∈ package, isUnquoted c = true)
    (hplain : (Line.shelved front request back).isPlain = true) :
    (Line.shelved front request back).spoiled package = true ↔
      (∃ p word, front.toList = p ++ word ∧ startsWord p.getLast? = true ∧
        IsImport package (word ++ Expr.inQuotes request.toList)) ∨
      ∃ p word b, front.toList = p ++ word ∧ back.toList = ')' :: b ∧ startsWord p.getLast? = true ∧
        IsDeclaration package (word ++ (Expr.inQuotes request.toList ++ [')'])) := by
  rw [Line.spoiled, Bool.or_eq_true, spoiledByImport_shelved_iff hpackage hplain,
    spoiledByDeclaration_shelved_iff hpackage hplain]

end

/-! ## 6. Line by line -/

theorem commentedFrom_newline {find : Finder Nat} {rest : List Char} (hfind : ∀ before, find before ('\n' :: rest) = none)
    (before : Option Char) : commentedFrom find before ('\n' :: rest) = '\n' :: commentedFrom find (some '\n') rest := by
  have hnothing : ∀ before t, t <:+ ['\n'] → t ≠ [] → find before (t ++ rest) = none := by
    intro before t ht hne
    obtain rfl : t = ['\n'] := (List.suffix_cons_iff.mp ht).resolve_right fun h => hne (List.suffix_nil.mp h)
    exact hfind before
  simpa using commentedFrom_of_nothing hnothing before

theorem startsWord_of_startsLine {before : Option Char} (h : startsLine before = true) : startsWord before = true := by
  cases before with
  | none => rfl
  | some c =>
    obtain rfl : c = '\n' := by simpa [startsLine] using h
    decide

/-- A search for imports sees nothing but the line. -/
theorem commentedFrom_import (hpackage : ∀ c ∈ package, isUnquoted c = true) (hplain : l.isPlain = true)
    {rest : List Char} (hrest : Stops package ('\n' :: rest)) {before : Option Char} (hbefore : startsLine before = true) :
    commentedFrom (importStatement package) before (l.text ++ '\n' :: rest) =
      commentedFrom (importStatement package) none l.text ++
        '\n' :: commentedFrom (importStatement package) (some '\n') rest := by
  have hlocal (before : Option Char) (t : List Char) :
      importStatement package before (t ++ '\n' :: rest) = importStatement package before t := by
    refine Option.ext fun (lead, n) => ?_
    rw [hrest.importStatement_iff hpackage]
    refine or_iff_left ?_
    rintro ⟨-, -, d, behind, hd, hback, -⟩
    obtain ⟨rfl, -⟩ := List.cons.inj hback
    cases hd
  obtain ⟨c, r, htext, -⟩ := Line.exists_text hplain
  have hfirst : commentedFrom (importStatement package) before l.text = commentedFrom (importStatement package) none l.text := by
    have hsame : importStatement package before (c :: r) = importStatement package none (c :: r) := by
      simp [importStatement, startsWord_of_startsLine hbefore, show startsWord none = true from rfl]
    rw [commentedFrom, commentedFrom, htext, segmentsFrom, segmentsFrom, hsame]
  rw [commentedFrom_append_of_local importStatement_advances fun before t _ _ => hlocal before t, hfirst,
    commentedFrom_newline fun before => importStatement_eq_none (by decide) before rest]

/-- A search for variables sees nothing but the line. -/
theorem commentedFrom_declaration (hpackage : ∀ c ∈ package, isUnquoted c = true) {rest : List Char}
    (hrest : Stops package ('\n' :: rest)) (before : Option Char) :
    commentedFrom (requireDeclaration package) before (raw ++ '\n' :: rest) =
      commentedFrom (requireDeclaration package) before raw ++
        '\n' :: commentedFrom (requireDeclaration package) (some '\n') rest := by
  rw [commentedFrom_append_of_local requireDeclaration_advances fun before t _ _ => hrest.requireDeclaration_eq hpackage,
    commentedFrom_newline fun before => requireDeclaration_eq_none (by decide) before rest]

theorem Turns.not_newline (h : Turns package l searched spoiled raw) : ∀ c ∈ raw, c ≠ '\n' := by
  have hplain {l : Line} (hplain : l.isPlain = true) : ∀ c ∈ l.text, c ≠ '\n' := by
    rintro c hc rfl
    exact absurd (Line.isOrdinary hplain _ hc) (by decide)
  cases h with
  | alive plain => exact hplain plain
  | @closed c blanks isOpen chars later unannotated spaces =>
    intro d hd
    simp only [List.mem_cons, List.mem_append, List.not_mem_nil, or_false] at hd
    rcases hd with rfl | rfl | hd | rfl | rfl | hd | rfl | rfl
    · decide
    · decide
    · rintro rfl
      exact absurd (chars _ hd) (by decide)
    · decide
    · decide
    · rw [spaces d hd]
      decide
    · decide
    · decide
  | cut plain =>
    intro d hd
    rcases List.mem_append.mp hd with hd | hd
    · exact hplain plain d hd
    · have hall : removedCloser.all (· != '\n') = true := by decide
      simpa using List.all_eq_true.mp hall d hd

/-- **A search for calls** that start a line finds nothing any more. -/
theorem Turns.statements (hpackage : ∀ c ∈ package, isUnquoted c = true) (h : Turns package l searched spoiled raw)
    (rest : List Char) (before : Option Char) :
    commentedFrom (requireStatement package) before (raw ++ '\n' :: rest) =
      raw ++ '\n' :: commentedFrom (requireStatement package) (some '\n') rest := by
  have hnone : ∀ pre t, raw ++ ['\n'] = pre ++ t → t ≠ [] →
      requireStatement package (pre.getLast?.or before) (t ++ rest) = none := by
    intro pre t hsplit hne
    rcases List.eq_nil_or_concat pre with rfl | ⟨pre, c, rfl⟩
    · obtain rfl : raw ++ ['\n'] = t := hsplit
      simpa using (h.stops hpackage rest).requireStatement hpackage before
    · obtain ⟨t, d, rfl⟩ := (List.eq_nil_or_concat t).resolve_left hne
      have hc : c ≠ '\n' := by
        have hraw : raw = pre ++ c :: t := by
          have hsplit : raw ++ ['\n'] = (pre ++ c :: t) ++ [d] := by simpa using hsplit
          exact (List.append_inj' hsplit rfl).1
        exact h.not_newline c (by simp [hraw])
      simp [requireStatement, startsLine, hc]
  have hsearch := commentedFrom_of_none hnone
  simpa using hsearch

/-- The text that consists of the lines. -/
def lineText (raws : List (List Char)) : List Char := raws.flatMap (· ++ ['\n'])

theorem lineText_cons (raw : List Char) (raws : List (List Char)) :
    lineText (raw :: raws) = raw ++ '\n' :: lineText raws := by
  simp [lineText]

/-- What the searches for imports and for variables make of a line, with the flag that goes with the line. -/
abbrev Turned (package : List Char) (l : Line) (raw : List Char) : Prop := Turns package l true (l.spoiled package) raw

/-- **A search of a text** is a search of its lines. -/
theorem commentedFrom_lines {find : Finder Nat} (hfind : find.Advances) {R R' : Line → List Char → Prop}
    (hstops : ∀ l raw rest, R l raw → Stops package ('\n' :: (raw ++ '\n' :: rest)))
    (hstep : ∀ l raw rest before, R l raw → Stops package ('\n' :: rest) → startsLine before = true →
      ∃ raw', R' l raw' ∧ commentedFrom find before (raw ++ '\n' :: rest) =
        raw' ++ '\n' :: commentedFrom find (some '\n') rest)
    {script : List Line} {raws : List (List Char)} (h : List.Forall₂ R script raws) :
    ∃ raws', List.Forall₂ R' script raws' ∧ commentedFrom find none (lineText raws) = lineText raws' := by
  suffices hlines : ∀ before, startsLine before = true → ∃ raws', List.Forall₂ R' script raws' ∧
      commentedFrom find before (lineText raws) = lineText raws' from hlines none rfl
  induction h with
  | nil => exact fun before _ => ⟨[], .nil, commentedFrom_nil hfind before⟩
  | @cons l raw script raws hraw hraws ih =>
    intro before hbefore
    have hrest : Stops package ('\n' :: lineText raws) := by
      cases hraws with
      | nil => exact stops_newline (by simp [lineText]) (by simp [lineText, quoted?]) (by simp [lineText])
      | @cons l raw script raws hraw _ =>
        rw [lineText_cons]
        exact hstops l raw _ hraw
    obtain ⟨raw', hraw', hsearch⟩ := hstep l raw (lineText raws) before hraw hrest hbefore
    obtain ⟨raws', hraws', hbehind⟩ := ih (some '\n') (by decide)
    exact ⟨raw' :: raws', .cons hraw' hraws', by rw [lineText_cons, hsearch, hbehind, lineText_cons]⟩

/-- **The three searches**, line by line. -/
theorem turns_script (hpackage : ∀ c ∈ package, isUnquoted c = true) {script : List Line}
    (hplain : ∀ l ∈ script, l.isPlain = true) (hunrelated : ∀ l ∈ script, Unrelated package l) :
    ∃ raws, List.Forall₂ (Turned package) script raws ∧
      (commentOutBy (statementFinders package) (scriptText script) 0).1 = lineText raws := by
  have hfirst : List.Forall₂ (fun l raw => raw = l.text ∧ l.isPlain = true ∧ Unrelated package l) script
      (script.map Line.text) := by
    rw [List.forall₂_map_right_iff, List.forall₂_same]
    exact fun l hl => ⟨rfl, hplain l hl, hunrelated l hl⟩
  obtain ⟨raws₁, hraws₁, hsearch₁⟩ := commentedFrom_lines importStatement_advances
    (fun l raw rest ⟨hraw, hplain, hunrelated⟩ =>
      hraw ▸ (Turns.alive hplain hunrelated rfl fun _ => rfl : Turns package l false false l.text).stops hpackage rest)
    (fun l raw rest before ⟨hraw, hplain, hunrelated⟩ hrest hbefore =>
      ⟨_, turns_of_plain hpackage hplain hunrelated, by rw [hraw, commentedFrom_import hpackage hplain hrest hbefore]⟩)
    hfirst
  obtain ⟨raws₂, hraws₂, hsearch₂⟩ : ∃ raws₂, List.Forall₂ (Turned package) script raws₂ ∧
      commentedFrom (requireDeclaration package) none (lineText raws₁) = lineText raws₂ :=
    commentedFrom_lines requireDeclaration_advances (fun l raw rest h => h.stops hpackage rest)
      (fun l raw rest before h hrest _ =>
        ⟨_, h.declarations hpackage before, commentedFrom_declaration hpackage hrest before⟩)
      hraws₁
  obtain ⟨raws₃, hraws₃, hsearch₃⟩ := commentedFrom_lines requireStatement_advances
    (fun l raw rest h => h.stops hpackage rest)
    (fun l raw rest before h _ _ => ⟨raw, h, h.statements hpackage rest before⟩) hraws₂
  refine ⟨raws₃, hraws₃, ?_⟩
  have htext : scriptText script = lineText (script.map Line.text) := by
    simp [scriptText, lineText, List.flatMap_map]
  rw [← hsearch₃, ← hsearch₂, ← hsearch₁, htext]
  rfl

/-! ## 7. What can be read of it -/

/-- A line that is spoiled cannot be read. -/
theorem Turns.spoils (h : Turns package l searched true raw) (rest : List Char) (fuel : Nat) :
    Spoils (fuel + 16) (raw ++ '\n' :: rest) := by
  cases h with
  | @closed c blanks isOpen chars later unannotated spaces =>
    have hline : ∀ d ∈ c, Lexer.isLineBreak d = false := fun d hd => not_lineBreak_of_isOrdinary (chars d hd)
    simpa using spoils_comment isOpen hline unannotated spaces ('\n' :: rest) (fuel + 10)
  | @cut name s plain =>
    have hdepth : ((Frame.quoted name).line s).depth ≤ fuel + 10 + 5 := by
      simp only [Frame.line, Line.depth, Expr.depth]
      omega
    have htext : ((Frame.quoted name).line s).text ++ removedCloser ++ '\n' :: rest =
        ((Frame.quoted name).line s).text ++ ' ' :: '*' :: '/' :: '\n' :: rest := by
      rw [List.append_assoc]
      rfl
    rw [htext]
    exact spoils_statement plain rfl ('\n' :: rest) hdepth

theorem Turns.startsPlainly (h : Turns package l searched true raw) (rest : List Char) : StartsPlainly (raw ++ rest) := by
  cases h with
  | closed => exact ⟨by simp, by simp⟩
  | @cut name s plain =>
    obtain ⟨c, r, htext, hc⟩ := Line.exists_text plain
    simp only [isFirst, Bool.and_eq_true, bne_iff_ne] at hc
    rw [htext]
    simpa [StartsPlainly] using hc.1.1.1.1

/-- The lines up to the first that is spoiled. -/
theorem exists_of_turns {script : List Line} {raws : List (List Char)}
    (h : List.Forall₂ (Turned package) script raws) :
    ∃ lines tail, lineText raws = scriptText lines ++ tail ∧ (∀ l ∈ lines, l.isPlain = true) ∧
      ((tail = [] ∧ (∀ l ∈ script, l.spoiled package = false) ∧ lines.any Line.isHollow = script.any Line.isHollow) ∨
        (tail ≠ [] ∧ (∃ l ∈ script, l.spoiled package = true) ∧ StartsPlainly tail ∧
          ∀ fuel, Spoils (fuel + 16) tail)) := by
  induction h with
  | nil => exact ⟨[], [], rfl, by simp, .inl ⟨rfl, by simp, rfl⟩⟩
  | @cons l raw script raws hraw hraws ih =>
    rw [lineText_cons]
    cases hspoiled : l.spoiled package with
    | true =>
      rw [Turned, hspoiled] at hraw
      exact ⟨[], _, rfl, by simp, .inr ⟨by simp, ⟨l, List.mem_cons_self .., hspoiled⟩, hraw.startsPlainly _,
        hraw.spoils _⟩⟩
    | false =>
      rw [Turned, hspoiled] at hraw
      cases hraw with
      | @alive l' plain unrelated hollow =>
        obtain ⟨lines, tail, htext, hplain, hcases⟩ := ih
        refine ⟨l' :: lines, tail, by rw [htext, ← scriptText_cons], List.forall_mem_cons.mpr ⟨plain, hplain⟩, ?_⟩
        rcases hcases with ⟨htail, hnone, hhollow⟩ | ⟨hne, ⟨l₂, hl₂, hspoiled₂⟩, hstarts, hspoils⟩
        · exact .inl ⟨htail, List.forall_mem_cons.mpr ⟨hspoiled, hnone⟩,
            by rw [List.any_cons, List.any_cons, hollow, hhollow]⟩
        · exact .inr ⟨hne, ⟨l₂, List.mem_cons_of_mem _ hl₂, hspoiled₂⟩, hstarts, hspoils⟩

/-- **What the searches leave of a script** that does not request the package can be read exactly if the script
could, and no line is spoiled. -/
theorem commented_readable_iff (dialect : Dialect) {package : String} (hpackage : isRequest package = true)
    {script : List Line} (hplain : ∀ l ∈ script, l.isPlain = true)
    (hunrelated : ∀ l ∈ script, Unrelated package.toList l) :
    (parse dialect (commentOutReferences (String.ofList (scriptText script)) package).text).succeeded = true ↔
      (∀ l ∈ script, l.isHollow = false) ∧ ∀ l ∈ script, l.spoiled package.toList = false := by
  have hunquoted : ∀ c ∈ package.toList, isUnquoted c = true := fun c hc =>
    isUnquoted_of_isRequestChar (List.all_eq_true.mp hpackage c hc)
  obtain ⟨raws, hraws, htext⟩ := turns_script hunquoted hplain hunrelated
  rw [commentOutReferences_eq, String.toList_ofList, htext]
  obtain ⟨lines, tail, hlines, hall, ⟨rfl, hnone, hhollow⟩ | ⟨hne, ⟨l, hl, hspoiled⟩, hstarts, hspoils⟩⟩ :=
    exists_of_turns hraws
  · dsimp only
    rw [hlines, List.append_nil, (parse_script dialect hall).1]
    have hsame : (∀ l ∈ lines, l.isHollow = false) ↔ ∀ l ∈ script, l.isHollow = false := by
      simpa using congrArg (· = false) hhollow
    rw [hsame]
    exact (and_iff_left hnone).symm
  · dsimp only
    rw [hlines, parse_spoiled dialect hall hspoils hstarts hne]
    refine iff_of_false (by simp) fun h => ?_
    rw [h.2 l hl] at hspoiled
    cases hspoiled

end

end PackageRefs.Plain
