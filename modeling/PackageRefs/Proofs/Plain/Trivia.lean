/-
# Comments between the lines

Comments are gathered on the way to the next token, and the reader settles where each of them belongs.  In a
plain script each comment is a line of its own (`OwnLine`), so it leads the next token, and what it says about
calls and functions is nothing (`isUnannotated_append`, `contentOf_of_isUnannotated`).

`Enters` says that a state has the first token of a text in hand, whatever was passed over on the way.  It is
what the lemmas about whole scripts carry from line to line: behind a line break comments are gathered
(`Gathers`), within a line none is (`Quiet`).
-/
import PackageRefs.Proofs.Plain.Token

namespace PackageRefs.Plain

open PackageRefs.Script PackageRefs.Text

/-! ## 1. What a comment says -/

theorem annotationName_eq_none_iff {text : List Char} : annotationName text = none ↔
    ¬"@__".toList <+: text ∧ ¬"#__".toList <+: text := by
  have hat : "@__".toList = ['@', '_', '_'] := rfl
  have hhash : "#__".toList = ['#', '_', '_'] := rfl
  rw [hat, hhash]
  unfold annotationName
  split
  · simp
  · simp
  · rename_i hat hhash
    simp only [true_iff]
    constructor <;> rintro ⟨r, rfl⟩
    · exact hat r rfl
    · exact hhash r rfl

/-- Behind the start of an unannotated text, a character that no annotation has changes nothing. -/
theorem isUnannotated_append {a b : List Char} {c : Char} (h : Line.isUnannotated (a ++ b) = true)
    (hc : isBlank c = false ∧ c ≠ '@' ∧ c ≠ '#' ∧ c ≠ '_') (r : List Char) :
    Line.isUnannotated (a ++ c :: r) = true := by
  simp only [Line.isUnannotated, Option.isNone_iff_eq_none, annotationName_eq_none_iff] at h ⊢
  obtain ⟨hblank, hat, hhash, hunder⟩ := hc
  induction a with
  | nil =>
    have hat' : "@__".toList = ['@', '_', '_'] := rfl
    have hhash' : "#__".toList = ['#', '_', '_'] := rfl
    simp [hblank, hat', hhash', hat.symm, hhash.symm]
  | cons d a ih =>
    cases hd : isBlank d with
    | true => simpa [hd] using ih (by simpa [hd] using h)
    | false =>
      simp only [List.cons_append, List.dropWhile_cons, hd, Bool.false_eq_true, if_false] at h ⊢
      have hat' : "@__".toList = ['@', '_', '_'] := rfl
      have hhash' : "#__".toList = ['#', '_', '_'] := rfl
      rw [hat', hhash'] at h ⊢
      match a with
      | [] => simp [hunder.symm]
      | [e] => simp [hunder.symm]
      | e :: f :: a => simpa using h

theorem contentOf_of_isUnannotated {text : List Char} (h : Line.isUnannotated text = true) :
    contentOf text ≠ .harmlessCall ∧ contentOf text ≠ .harmlessFunction := by
  have hnone : annotationName (text.dropWhile isBlank) = none := by
    simpa [Line.isUnannotated] using h
  unfold contentOf
  simp only [hnone]
  split <;> simp

namespace Line

/-- The line is a line comment. -/
def isNote : Line → Bool
  | note _ => true
  | _ => false

/-- The text between the marks of a comment. -/
def inner : Line → List Char
  | note t | block t => t.toList
  | shelved front request back => front.toList ++ (Expr.inQuotes request.toList ++ back.toList)
  | _ => []

variable {l : Line}

theorem text_of_isNote (h : l.isNote = true) : l.text = '/' :: '/' :: l.inner := by
  cases l <;> first | rfl | cases h

theorem text_of_isComment (h : l.isComment = true) (hnote : l.isNote = false) :
    l.text = '/' :: '*' :: (l.inner ++ ['*', '/']) := by
  cases l with
  | block t => simp [text, inner]
  | shelved front request back => simp [text, inner]
  | note t => cases hnote
  | _ => cases h

theorem isUnannotated_inner (h : l.isComment = true) (hplain : l.isPlain = true) :
    isUnannotated l.inner = true := by
  cases l with
  | note t => exact (Bool.and_eq_true_iff.mp hplain).2
  | block t => exact (Bool.and_eq_true_iff.mp hplain).2
  | shelved front request back =>
    simp only [isPlain, Bool.and_eq_true] at hplain
    have hfront : isUnannotated (front.toList ++ []) = true := by simpa using hplain.1.1.2
    exact isUnannotated_append hfront (by decide) _
  | _ => cases h

end Line

/-! ## 2. Comments on lines of their own -/

/-- The comment is a line of its own, and says nothing about a call or a function. -/
structure OwnLine (c : Comment) : Prop where
  line : ∃ l : Line, l.isPlain = true ∧ l.isComment = true ∧ c.text = l.text ∧ c.isLine = l.isNote
  content : c.content ≠ .harmlessCall ∧ c.content ≠ .harmlessFunction
  newlineBefore : c.newlineBefore = true
  newlineAfter : c.newlineAfter = true

/-- No comment so far says that a call or a function has no effect. -/
structure Quiet (log : CommentLog) : Prop where
  call : log.sawHarmless = false
  function : log.sawHarmlessFunction = false

/-- Behind a line break, comments on lines of their own have been gathered, and `old` are those before. -/
structure Gathers (old : List Comment) (log : CommentLog) : Prop extends Quiet log where
  sawNewline : log.sawNewline = true
  comments : ∃ new, log.comments = new ++ old ∧ log.waiting = new.length ∧ ∀ c ∈ new, OwnLine c

section

variable {old : List Comment} {log : CommentLog} {l : Line}

theorem gathers_newline (h : Quiet log) (hwaiting : log.waiting = 0) :
    Gathers log.comments log.newline := by
  have hlog : log.newline = { log with sawNewline := true } := by simp [CommentLog.newline, hwaiting]
  rw [hlog]
  exact ⟨⟨h.call, h.function⟩, rfl, [], rfl, hwaiting, by simp⟩

theorem commentContent_of_isComment (h : l.isComment = true) :
    commentContent l.isNote l.text = contentOf l.inner := by
  cases hnote : l.isNote with
  | true => simp [commentContent, Line.text_of_isNote hnote]
  | false => simp [commentContent, Line.text_of_isComment h hnote]

/-- The comment that a line is, before the token that it leads. -/
def Line.comment (l : Line) (start stop : Nat) : Comment where
  isLine := l.isNote
  start := start
  stop := stop
  text := l.text
  content := contentOf l.inner
  attachedTo := none
  newlineBefore := true
  newlineAfter := true

theorem ownLine_comment (hcomment : l.isComment = true) (hplain : l.isPlain = true) (start stop : Nat) :
    OwnLine (l.comment start stop) where
  line := ⟨l, hplain, hcomment, rfl, rfl⟩
  content := contentOf_of_isUnannotated (Line.isUnannotated_inner hcomment hplain)
  newlineBefore := rfl
  newlineAfter := rfl

/-- One more comment on a line of its own. -/
theorem Gathers.add (h : Gathers old log) (hcomment : l.isComment = true) (hplain : l.isPlain = true)
    (start stop : Nat) : Gathers old (log.add l.isNote start stop l.text).newline := by
  have hcontent := commentContent_of_isComment hcomment
  obtain ⟨hcall, hfunction⟩ := contentOf_of_isUnannotated (Line.isUnannotated_inner hcomment hplain)
  obtain ⟨⟨hquiet, hquiet'⟩, hnewline, new, hcomments, hwaiting, hnew⟩ := h
  have hcall' : (contentOf l.inner == .harmlessCall) = false := beq_eq_false_iff_ne.mpr hcall
  have hfunction' : (contentOf l.inner == .harmlessFunction) = false := beq_eq_false_iff_ne.mpr hfunction
  have hlog : (log.add l.isNote start stop l.text).newline =
      { log with
        comments := l.comment start stop :: log.comments
        waiting := log.waiting + 1
        sawNewline := true } := by
    cases hnote : l.isNote <;> rw [hnote] at hcontent <;>
      simp [CommentLog.add, CommentLog.newline, CommentLog.updateLatest, Line.comment, hnote, hcontent, hnewline,
        hquiet, hquiet', hcall', hfunction']
  rw [hlog]
  refine ⟨⟨hquiet, hquiet'⟩, rfl, l.comment start stop :: new, by simp [hcomments], by simp [hwaiting], ?_⟩
  exact List.forall_mem_cons.mpr ⟨ownLine_comment hcomment hplain start stop, hnew⟩

/-! ## 3. Passing over comments -/

theorem not_lineBreak_of_isOrdinary {c : Char} (h : isOrdinary c = true) : Lexer.isLineBreak c = false := by
  have hall := forall_ascii (p := fun c => !isOrdinary c || !Lexer.isLineBreak c) (by decide +kernel)
    (lt_of_isOrdinary h)
  simpa [h] using hall

theorem skipTrivia_line {t : List Char} (ht : ∀ c ∈ t, Lexer.isLineBreak c = false) (isModule : Bool)
    (start : Nat) (seen rest : List Char) (pos : Nat) (log : CommentLog) (fresh : Bool) :
    Lexer.skipTrivia isModule (.line start seen) (t ++ '\n' :: rest) pos log fresh =
      Lexer.skipTrivia isModule .code rest (pos + (t.length + 1))
        (log.add true start (pos + t.length) (seen.reverse ++ t)).newline true := by
  induction t generalizing seen pos with
  | nil => simp [Lexer.skipTrivia, Lexer.isLineBreak]
  | cons c t ih =>
    rw [List.forall_mem_cons] at ht
    rw [List.cons_append, Lexer.skipTrivia, ht.1]
    have hlength : pos + 1 + (t.length + 1) = pos + ((c :: t).length + 1) := by
      rw [List.length_cons]
      omega
    have hlength' : pos + 1 + t.length = pos + (c :: t).length := by
      rw [List.length_cons]
      omega
    simp only [Bool.false_eq_true, if_false, ih ht.2, hlength, hlength', List.reverse_cons, List.append_assoc,
      List.cons_append, List.nil_append]

theorem toList_commentEnd : "*/".toList = ['*', '/'] := rfl

theorem skipTrivia_block {t : List Char} (hopen : ¬"*/".toList <:+: t)
    (ht : ∀ c ∈ t, Lexer.isLineBreak c = false) (isModule : Bool) (start : Nat) (seen rest : List Char)
    (pos : Nat) (log : CommentLog) (fresh : Bool) :
    Lexer.skipTrivia isModule (.block start seen) (t ++ '*' :: '/' :: rest) pos log fresh =
      Lexer.skipTrivia isModule .code rest (pos + (t.length + 2))
        (log.add false start (pos + (t.length + 2)) (seen.reverse ++ (t ++ ['*', '/']))) fresh := by
  rw [toList_commentEnd] at hopen
  induction t generalizing seen pos with
  | nil => simp [Lexer.skipTrivia]
  | cons c t ih =>
    rw [List.forall_mem_cons] at ht
    rw [List.infix_cons_iff, not_or] at hopen
    have hlength : pos + 1 + (t.length + 2) = pos + ((c :: t).length + 2) := by
      rw [List.length_cons]
      omega
    rw [List.cons_append, Lexer.skipTrivia]
    · simp only [ht.1, Bool.or_false, ih hopen.2 ht.2, hlength, List.reverse_cons, List.append_assoc,
        List.cons_append, List.nil_append]
    · -- an asterisk here is followed by no slash
      rintro r rfl heq
      cases t with
      | nil => cases heq
      | cons d t =>
        obtain ⟨rfl, -⟩ := List.cons.inj heq
        exact hopen.1 (by simp)

theorem isOrdinary_of_isRequestChar {c : Char} (h : isRequestChar c = true) :
    isOrdinary c = true ∧ c ≠ '"' := by
  have hall := forall_ascii (p := fun c => !isRequestChar c || (isOrdinary c && c != '"'))
    (by decide +kernel) (lt_of_isRequestChar h)
  simpa [h] using hall

/-- A character that may stand in a block comment, or in quotes there. -/
def isInner (c : Char) : Bool := isOrdinary c && c != '*'

theorem isInner_of_isRequestChar {c : Char} (h : isRequestChar c = true) : isInner c = true := by
  have hall := forall_ascii (p := fun c => !isRequestChar c || isInner c) (by decide +kernel)
    (lt_of_isRequestChar h)
  simpa [h] using hall

theorem Line.mem_of_isClosing {text : List Char} (h : isClosing text = true) {c : Char} (hc : c ∈ text) :
    c = ' ' ∨ c = ';' := by
  rw [← List.takeWhile_append_dropWhile (p := (· == ' ')) (l := text), List.mem_append] at hc
  rcases hc with hc | hc
  · exact .inl (by simpa using List.all_eq_true.mp List.all_takeWhile c hc)
  · unfold isClosing at h
    split at h
    · rename_i r hdrop
      rw [hdrop, List.mem_cons] at hc
      exact hc.symm.imp_left fun hc => by simpa using List.all_eq_true.mp h c hc
    · rw [List.isEmpty_iff.mp h] at hc
      cases hc

/-- Parentheses stand around the quotes, or none stands before them. -/
theorem Line.isAround_iff {front back : List Char} : isAround front back = true ↔
    (∃ f b, front = f ++ ['('] ∧ back = ')' :: b ∧ isClosing b = true) ∨ '(' ∉ front ∧ isClosing back = true := by
  unfold isAround
  split
  · rename_i b
    have hclosing : isClosing (')' :: b) = false := rfl
    rw [Bool.and_eq_true, beq_iff_eq, List.getLast?_eq_some_iff]
    constructor
    · rintro ⟨⟨f, rfl⟩, hb⟩
      exact .inl ⟨f, b, rfl, rfl, hb⟩
    · rintro (⟨f, b', rfl, hback, hb⟩ | ⟨-, h⟩)
      · obtain rfl := (List.cons.inj hback).2
        exact ⟨⟨f, rfl⟩, hb⟩
      · rw [hclosing] at h
        cases h
  · rename_i hnot
    rw [Bool.and_eq_true, Bool.not_eq_true', ← Bool.not_eq_true, List.contains_iff_mem]
    refine ⟨.inr, ?_⟩
    rintro (⟨f, b, -, hback, -⟩ | h)
    · exact absurd hback (hnot b)
    · exact h

theorem Line.mem_of_isAround {front back : List Char} (h : isAround front back = true) {c : Char} (hc : c ∈ back) :
    c = ' ' ∨ c = ';' ∨ c = ')' := by
  rcases isAround_iff.mp h with ⟨f, b, -, rfl, hb⟩ | ⟨-, hback⟩
  · rcases List.mem_cons.mp hc with rfl | hc
    · exact .inr (.inr rfl)
    · exact (mem_of_isClosing hb hc).imp_right .inl
  · exact (mem_of_isClosing hback hc).imp_right .inl

theorem Line.isInner_of_mem_inner (hcomment : l.isComment = true) (hplain : l.isPlain = true) {c : Char}
    (hc : c ∈ l.inner) : isOrdinary c = true ∧ (l.isNote = false → c ≠ '*') := by
  cases l with
  | note t =>
    simp only [isPlain, Bool.and_eq_true, List.all_eq_true] at hplain
    exact ⟨hplain.1 c hc, fun h => by cases h⟩
  | block t =>
    simp only [isPlain, Bool.and_eq_true, List.all_eq_true, bne_iff_ne] at hplain
    obtain ⟨⟨⟨hordinary, hstar⟩, -⟩, -⟩ := hplain.1 c hc
    exact ⟨hordinary, fun _ => hstar⟩
  | shelved front request back =>
    simp only [isPlain, Bool.and_eq_true, List.all_eq_true, bne_iff_ne] at hplain
    obtain ⟨⟨⟨hfront, -⟩, hrequest⟩, hback⟩ := hplain
    have hinner : isInner c = true := by
      simp only [inner, Expr.inQuotes, List.mem_append, List.mem_cons, List.not_mem_nil, or_false] at hc
      rcases hc with hc | (rfl | hc | rfl) | hc
      · obtain ⟨⟨⟨hordinary, hstar⟩, -⟩, -⟩ := hfront c hc
        simp [isInner, hordinary, hstar]
      · decide
      · exact isInner_of_isRequestChar (List.all_eq_true.mp hrequest c hc)
      · decide
      · rcases mem_of_isAround hback hc with rfl | rfl | rfl <;> decide
    simp only [isInner, Bool.and_eq_true, bne_iff_ne] at hinner
    exact ⟨hinner.1, fun _ => hinner.2⟩
  | _ => cases hcomment

theorem Line.isOrdinary_of_isComment (hcomment : l.isComment = true) (hplain : l.isPlain = true) :
    ∀ c ∈ l.text, isOrdinary c = true := by
  have hinner : ∀ c ∈ l.inner, isOrdinary c = true := fun c hc =>
    (Line.isInner_of_mem_inner hcomment hplain hc).1
  intro c hc
  cases hnote : l.isNote with
  | true =>
    rw [Line.text_of_isNote hnote, List.mem_cons, List.mem_cons] at hc
    rcases hc with rfl | rfl | hc
    · decide
    · decide
    · exact hinner c hc
  | false =>
    rw [Line.text_of_isComment hcomment hnote] at hc
    simp only [List.mem_cons, List.mem_append, List.not_mem_nil, or_false] at hc
    rcases hc with rfl | rfl | hc | rfl | rfl
    · decide
    · decide
    · exact hinner c hc
    · decide
    · decide

/-- **A comment on a line of its own** is passed over. -/
theorem skipTrivia_comment (hcomment : l.isComment = true) (hplain : l.isPlain = true) (isModule : Bool)
    (rest : List Char) (pos : Nat) (log : CommentLog) (fresh : Bool) :
    ∃ start stop stop', pos ≤ stop' ∧ Lexer.skipTrivia isModule .code (l.text ++ '\n' :: rest) pos log fresh =
      Lexer.skipTrivia isModule .code rest stop' (log.add l.isNote start stop l.text).newline true := by
  have hchars : ∀ c ∈ l.inner, isOrdinary c = true ∧ (l.isNote = false → c ≠ '*') := fun c hc =>
    Line.isInner_of_mem_inner hcomment hplain hc
  cases hnote : l.isNote with
  | true =>
    have hline : ∀ c ∈ l.inner, Lexer.isLineBreak c = false := fun c hc =>
      not_lineBreak_of_isOrdinary (hchars c hc).1
    have htext : l.text ++ '\n' :: rest = '/' :: '/' :: (l.inner ++ '\n' :: rest) := by
      simp [Line.text_of_isNote hnote]
    refine ⟨pos, pos + 2 + l.inner.length, pos + 2 + (l.inner.length + 1), by omega, ?_⟩
    rw [htext, Lexer.skipTrivia, skipTrivia_line hline]
    simp [Line.text_of_isNote hnote]
  | false =>
    have hline : ∀ c ∈ l.inner, Lexer.isLineBreak c = false := fun c hc =>
      not_lineBreak_of_isOrdinary (hchars c hc).1
    have hopen : ¬"*/".toList <:+: l.inner := fun h => (hchars '*' (h.subset (by simp))).2 hnote rfl
    have htext : l.text ++ '\n' :: rest = '/' :: '*' :: (l.inner ++ '*' :: '/' :: '\n' :: rest) := by
      simp [Line.text_of_isComment hcomment hnote]
    refine ⟨pos, pos + 2 + (l.inner.length + 2), pos + 2 + (l.inner.length + 2) + 1, by omega, ?_⟩
    rw [htext, Lexer.skipTrivia, skipTrivia_block hopen hline, Lexer.skipTrivia]
    · simp [Lexer.isLineBreak, Line.text_of_isComment hcomment hnote]
    · simp
    · simp

/-! ## 4. Where a token is looked for -/

/-- The state has the first token of the text in hand: on the way to it, from `pos` on, only the text was
left, and the log of comments satisfied the condition. -/
def Enters (gathered : CommentLog → Prop) (pos : Nat) (text : List Char) (s : State) : Prop :=
  ∃ s₀ fresh log fresh', (s₀.lexical = [] ∧ s₀.complaints = [] ∧ s₀.shortDefaults = []) ∧ gathered log ∧
    s = Parser.nextOn fresh s₀ ∧
    Lexer.skipTrivia s₀.dialect.isModule .code s₀.rest s₀.token.stop s₀.log fresh =
      Lexer.skipTrivia s₀.dialect.isModule .code text pos log fresh'

section

variable {gathered gathered' : CommentLog → Prop} {pos : Nat} {text rest : List Char} {s : State}
  {lexeme : Lexeme} {lexemes : List Lexeme}

theorem Enters.imp (h : Enters gathered pos text s) (hlog : ∀ log, gathered log → gathered' log) :
    Enters gathered' pos text s := by
  obtain ⟨s₀, fresh, log, fresh', hclean, hgathered, hs, hskip⟩ := h
  exact ⟨s₀, fresh, log, fresh', hclean, hlog log hgathered, hs, hskip⟩

theorem enters_start (dialect : Dialect) (text : List Char) :
    Enters (Gathers []) 0 text (State.start dialect text 0) :=
  ⟨_, true, {}, true, ⟨rfl, rfl, rfl⟩, ⟨⟨rfl, rfl⟩, rfl, [], rfl, rfl, by simp⟩, rfl, rfl⟩

/-- Behind the last token of a line comes the next line. -/
theorem enters_nextLine (hs : Ready s) (hrest : s.rest = '\n' :: text) :
    Enters (Gathers s.log.comments) (s.token.stop + 1) text (Parser.next s) := by
  have hskip : Lexer.skipTrivia s.dialect.isModule .code s.rest s.token.stop s.log false =
      Lexer.skipTrivia s.dialect.isModule .code text (s.token.stop + 1) s.log.newline true := by
    rw [hrest]
    simp [Lexer.skipTrivia, Lexer.isLineBreak]
  exact ⟨s, false, _, true, ⟨hs.lexical, hs.complaints, hs.shortDefaults⟩,
    gathers_newline ⟨hs.sawNoHarmless, hs.log⟩ hs.settled, rfl, hskip⟩

/-- Behind a token comes the rest of its line. -/
theorem enters_next (hs : Ready s) : Enters Quiet s.token.stop s.rest (Parser.next s) :=
  ⟨s, false, _, false, ⟨hs.lexical, hs.complaints, hs.shortDefaults⟩, ⟨hs.sawNoHarmless, hs.log⟩, rfl, rfl⟩

theorem Enters.space (h : Enters gathered pos (' ' :: text) s) : Enters gathered (pos + 1) text s := by
  obtain ⟨s₀, fresh, log, fresh', hclean, hgathered, hs, hskip⟩ := h
  refine ⟨s₀, fresh, log, fresh', hclean, hgathered, hs, hskip.trans ?_⟩
  simp [Lexer.skipTrivia, Lexer.isLineBreak, Lexer.isInlineSpace, isBlank]

theorem Enters.comment (h : Enters (Gathers old) pos (l.text ++ '\n' :: text) s)
    (hcomment : l.isComment = true) (hplain : l.isPlain = true) :
    ∃ pos', pos ≤ pos' ∧ Enters (Gathers old) pos' text s := by
  obtain ⟨s₀, fresh, log, fresh', hclean, hgathered, hs, hskip⟩ := h
  obtain ⟨start, stop, stop', hle, hcomment'⟩ :=
    skipTrivia_comment hcomment hplain s₀.dialect.isModule text pos log fresh'
  exact ⟨stop', hle, s₀, fresh, _, true, hclean, hgathered.add hcomment hplain start stop, hs,
    hskip.trans hcomment'⟩

/-- The first token of the text is in hand. -/
theorem Enters.first (h : Enters gathered pos text s) (hquiet : ∀ log, gathered log → Quiet log)
    (hnext : Next text lexeme rest) :
    s.token.lexeme = lexeme ∧ pos ≤ s.token.start ∧ s.token.start < s.token.stop ∧ Ready s ∧
      s.rest = rest ∧ ∃ log, gathered log ∧ s.log.comments =
        CommentLog.updateLatest (fun c => { c with attachedTo := some s.token.start }) log.waiting
          log.comments := by
  obtain ⟨s₀, fresh, log, fresh', ⟨hlexical, hcomplaints, hdefaults⟩, hgathered, hs, hskip⟩ := h
  obtain ⟨trimmed, start, stop, hle, hlt, htrimmed, hstray, hlex⟩ := hnext.2 s₀.dialect.isModule pos log fresh'
  obtain ⟨hcall, hfunction⟩ := hquiet log hgathered
  have hstate : s = { s₀ with
      token :=
        { lexeme, start, stop, onNewLine := fresh', afterHarmless := log.sawHarmless
          afterHarmlessFunction := log.sawHarmlessFunction }
      tokenText := trimmed, rest, log := log.token start (Parser.isOpener lexeme)
      previousStop := s₀.token.stop } := by
    rw [hs]
    simp [Parser.nextOn, Parser.scan, hskip, htrimmed, hstray, hlex]
  rw [hstate]
  refine ⟨rfl, hle, hlt, ⟨⟨hlexical, hcomplaints, hdefaults, hfunction, rfl⟩, hcall, rfl, rfl⟩, rfl, log,
    hgathered, rfl⟩

theorem Enters.sees (h : Enters gathered pos text s) (hquiet : ∀ log, gathered log → Quiet log)
    (hlexes : Lexes text (lexeme :: lexemes) rest) :
    Sees (lexeme :: lexemes) s ∧ (skip lexemes.length s).rest = rest ∧
      rest.length + lexemes.length ≤ s.rest.length ∧ s.rest.length < text.length := by
  cases hlexes with
  | cons hnext hothers =>
    obtain ⟨hlexeme, -, hlt, hready, hrest, -⟩ := h.first hquiet hnext
    refine ⟨⟨hlexeme, hlt, hready, hothers.ahead hrest hready⟩, hothers.rest_skip hrest, ?_, ?_⟩
    · rw [hrest]
      exact hothers.length_add_le
    · rw [hrest]
      exact hnext.1

/-- The end of the text is in hand. -/
theorem Enters.finish (h : Enters gathered pos [] s) (hquiet : ∀ log, gathered log → Quiet log) :
    s.token.lexeme = .endOfText ∧ s.Clean ∧ s.rest = [] ∧ pos ≤ s.token.start ∧
      ∃ log, gathered log ∧ s.log.comments =
        CommentLog.updateLatest (fun c => { c with attachedTo := some s.token.start }) log.waiting
          log.comments := by
  obtain ⟨s₀, fresh, log, fresh', ⟨hlexical, hcomplaints, hdefaults⟩, hgathered, hs, hskip⟩ := h
  obtain ⟨hcall, hfunction⟩ := hquiet log hgathered
  have hstate : s = { s₀ with
      token :=
        { lexeme := .endOfText, start := pos, stop := pos, onNewLine := fresh'
          afterHarmless := log.sawHarmless, afterHarmlessFunction := log.sawHarmlessFunction }
      tokenText := [], rest := [], log := log.token pos false
      previousStop := s₀.token.stop } := by
    rw [hs]
    simp [Parser.nextOn, Parser.scan, hskip, Lexer.skipTrivia, Parser.isStray, Parser.lexToken, Parser.isOpener]
  rw [hstate]
  exact ⟨rfl, ⟨hlexical, hcomplaints, hdefaults, hfunction, rfl⟩, rfl, Nat.le_refl pos, log, hgathered, rfl⟩

theorem updateLatest_append (f : Comment → Comment) (new old : List Comment) :
    CommentLog.updateLatest f new.length (new ++ old) = new.map f ++ old := by
  induction new with
  | nil => cases old <;> rfl
  | cons c new ih => simp [CommentLog.updateLatest, ih]

/-- The comments that were gathered lead the token, and those before stay as they are. -/
theorem Gathers.led (h : Gathers old log) (start : Nat) : ∃ new,
    CommentLog.updateLatest (fun c => { c with attachedTo := some start }) log.waiting log.comments =
      new ++ old ∧ ∀ c ∈ new, OwnLine c ∧ c.attachedTo = some start := by
  obtain ⟨-, -, new, hcomments, hwaiting, hnew⟩ := h
  refine ⟨new.map fun c => { c with attachedTo := some start }, ?_, ?_⟩
  · rw [hcomments, hwaiting, updateLatest_append]
  · rintro _ hc
    obtain ⟨c, hmem, rfl⟩ := List.mem_map.mp hc
    obtain ⟨hline, hcontent, hbefore, hafter⟩ := hnew c hmem
    exact ⟨⟨hline, hcontent, hbefore, hafter⟩, rfl⟩

end

end

end PackageRefs.Plain
