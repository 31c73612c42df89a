/-
# What commenting out puts into a text

Three searches run one after the other, and each puts comments around what it finds in the text that the one
before left.  So a comment can come to stand around a part of another comment, or inside one, and the text
alone does not show which of its characters were in the source.

A traced text (`List Traced`) does: each character carries its `Origin`.  `Draft.commentOut` is one search on a
traced text, and `tracedReferences` all three.  Without the origins they are what `commentOutAll` and
`commentOutReferences` do (`text_commentOut`, `text_tracedReferences`).

**The result** (`commentOutReferences_loses_nothing`): nothing of the source is lost.  It is what is left when
one opener and one closer for each find, and one space for each end of a comment that was broken up, are
taken out again.
-/
import Mathlib.Algebra.GroupWithZero.Nat
import Mathlib.Data.List.Infix
import PackageRefs.Proofs.Text.Search
import PackageRefs.Proofs.Text.Utf8
import PackageRefs.Removal.CommentOut

namespace PackageRefs

open PackageRefs.Text

/-! ## 1. The searches advance -/

/-- The first text is what the second one ends with, behind something. -/
def EndsIn (rest text : List Char) : Prop := rest <:+ text ∧ rest.length < text.length

theorem EndsIn.of_suffix {rest text shorter : List Char} (h : EndsIn rest text) (hs : shorter <:+ rest) :
    EndsIn shorter text :=
  ⟨hs.trans h.1, Nat.lt_of_le_of_lt hs.length_le h.2⟩

theorem EndsIn.suffix_trans {rest text longer : List Char} (h : EndsIn rest text) (hs : text <:+ longer) :
    EndsIn rest longer :=
  ⟨h.1.trans hs, Nat.lt_of_lt_of_le h.2 hs.length_le⟩

/-- A find up to such an end is not empty and not longer than the text. -/
theorem EndsIn.upTo_bounds {rest text : List Char} (h : EndsIn rest text) :
    0 < text.length - rest.length ∧ text.length - rest.length ≤ text.length :=
  ⟨Nat.sub_pos_of_lt h.2, Nat.sub_le ..⟩

theorem endsIn_of_after? {phrase : String} {text rest : List Char} (h : after? phrase text = some rest)
    (hphrase : phrase.toList ≠ []) : EndsIn rest text := by
  refine ⟨suffix_of_after? h, ?_⟩
  obtain rfl := after?_eq_some_iff.mp h
  rw [List.length_append]
  exact Nat.lt_add_of_pos_left (List.length_pos_iff.mpr hphrase)

theorem afterStatement_suffix (text : List Char) : afterStatement text <:+ text := by
  unfold afterStatement
  split
  · rename_i r hspaces
    exact (List.suffix_cons ';' r).trans (hspaces ▸ afterSpaces_suffix text)
  · exact afterSpaces_suffix text

theorem endsIn_of_requireOf? {package text rest : List Char} (h : requireOf? package text = some rest) :
    EndsIn rest text := by
  unfold requireOf? requireArgument? at h
  simp only [Option.bind_eq_bind, Option.bind_eq_some_iff, Option.pure_def, Option.some.injEq] at h
  obtain ⟨_, ⟨r, hword, s, hparenthesis, rfl⟩, t, hquoted, hclose⟩ := h
  have hrest : rest <:+ t := (suffix_of_after? hclose).trans (afterBlanks_suffix t)
  have ht : t <:+ s := (suffix_of_quoted? hquoted).trans (afterBlanks_suffix s)
  have hs : s <:+ r := (suffix_of_after? hparenthesis).trans (afterBlanks_suffix r)
  exact (endsIn_of_after? hword (by decide)).of_suffix (hrest.trans (ht.trans hs))

theorem endsIn_of_importSource? {text rest : List Char} (h : importSource? text = some rest) :
    EndsIn rest text := by
  unfold importSource? at h
  obtain ⟨r, hword, h⟩ := Option.bind_eq_some_iff.mp h
  dsimp only at h
  split at h
  · cases h
    exact (endsIn_of_after? hword (by decide)).of_suffix (List.drop_suffix ..)
  · cases h

theorem endsIn_of_declaringWord? {text rest : List Char} (h : declaringWord? text = some rest) :
    EndsIn rest text := by
  simp only [declaringWord?, Option.orElse_eq_or, Option.or_eq_some_iff] at h
  rcases h with h | ⟨-, h | ⟨-, h⟩⟩
  · exact endsIn_of_after? h (by decide)
  · exact endsIn_of_after? h (by decide)
  · exact endsIn_of_after? h (by decide)

variable {package : List Char}

theorem importStatement_advances : (importStatement package).Advances := by
  intro before text lead n h
  unfold importStatement at h
  split at h
  · obtain ⟨r, hsource, h⟩ := Option.bind_eq_some_iff.mp h
    obtain ⟨s, hquoted, h⟩ := Option.bind_eq_some_iff.mp h
    cases h
    have hr := endsIn_of_importSource? hsource
    exact ((hr.of_suffix (suffix_of_quoted? hquoted)).of_suffix (afterStatement_suffix s)).upTo_bounds
  · cases h

theorem requireDeclaration_advances : (requireDeclaration package).Advances := by
  intro before text lead n h
  unfold requireDeclaration at h
  split at h
  · obtain ⟨r, hword, h⟩ := Option.bind_eq_some_iff.mp h
    dsimp only at h
    split at h
    · obtain ⟨s, hequals, h⟩ := Option.bind_eq_some_iff.mp h
      obtain ⟨t, hrequire, h⟩ := Option.bind_eq_some_iff.mp h
      cases h
      have hs : s <:+ r := (suffix_of_after? hequals).trans (List.drop_suffix ..)
      have ht : t <:+ s := (endsIn_of_requireOf? hrequire).1.trans (afterBlanks_suffix s)
      have hr := endsIn_of_declaringWord? hword
      exact (hr.of_suffix ((afterStatement_suffix t).trans (ht.trans hs))).upTo_bounds
    · cases h
  · cases h

theorem requireStatement_advances : (requireStatement package).Advances := by
  intro before text lead n h
  unfold requireStatement at h
  split at h
  · obtain ⟨r, hrequire, h⟩ := Option.bind_eq_some_iff.mp h
    cases h
    have hr := (endsIn_of_requireOf? hrequire).of_suffix (afterStatement_suffix r)
    exact (hr.suffix_trans (afterSpaces_suffix text)).upTo_bounds
  · cases h

theorem statementFinders_advance {find : Finder Nat} (h : find ∈ statementFinders package) :
    find.Advances := by
  simp only [statementFinders, List.mem_cons, List.not_mem_nil, or_false] at h
  rcases h with rfl | rfl | rfl
  · exact importStatement_advances
  · exact requireDeclaration_advances
  · exact requireStatement_advances

/-! ## 2. Texts with origins -/

/-- What stands around the statement in a comment. -/
inductive Delimiter where
  | opener | closer
  deriving DecidableEq

def Delimiter.text : Delimiter → List Char
  | opener => removedOpener
  | closer => removedCloser

/-- Where a character of a text with comments comes from.  The comments are numbered as they are made. -/
inductive Origin where
  | source
  | delimiter (which : Delimiter) (comment : Nat)
  /-- the space that breaks up the end of a comment -/
  | gap
  deriving DecidableEq

/-- A character and where it comes from. -/
structure Traced where
  char : Char
  origin : Origin
  deriving DecidableEq

/-- The text without the origins. -/
def textOf (ts : List Traced) : List Char := ts.map Traced.char

/-- The part of a text that comes from one place. -/
def textFrom (origin : Origin) (ts : List Traced) : List Char := textOf (ts.filter (·.origin = origin))

/-- A text that comes from one place. -/
def allFrom (origin : Origin) (s : List Char) : List Traced := s.map (⟨·, origin⟩)

def delimiter (which : Delimiter) (comment : Nat) : List Traced :=
  allFrom (.delimiter which comment) which.text

@[simp] theorem textOf_nil : textOf [] = [] := rfl

@[simp] theorem textOf_cons (t : Traced) (ts : List Traced) : textOf (t :: ts) = t.char :: textOf ts := rfl

@[simp] theorem textOf_append (ts us : List Traced) : textOf (ts ++ us) = textOf ts ++ textOf us :=
  List.map_append

@[simp] theorem textOf_allFrom (origin : Origin) (s : List Char) : textOf (allFrom origin s) = s := by
  simp [textOf, allFrom, Function.comp_def]

@[simp] theorem textFrom_nil (origin : Origin) : textFrom origin [] = [] := rfl

theorem textFrom_cons (origin : Origin) (t : Traced) (ts : List Traced) :
    textFrom origin (t :: ts) =
      if t.origin = origin then t.char :: textFrom origin ts else textFrom origin ts := by
  unfold textFrom
  rw [List.filter_cons]
  by_cases h : t.origin = origin <;> simp [h]

@[simp] theorem textFrom_append (origin : Origin) (ts us : List Traced) :
    textFrom origin (ts ++ us) = textFrom origin ts ++ textFrom origin us := by
  simp [textFrom]

theorem textFrom_allFrom (origin other : Origin) (s : List Char) :
    textFrom origin (allFrom other s) = if other = origin then s else [] := by
  induction s with
  | nil => simp [allFrom]
  | cons c s ih =>
    rw [show allFrom other (c :: s) = ⟨c, other⟩ :: allFrom other s from rfl, textFrom_cons, ih]
    by_cases h : other = origin <;> simp [h]

theorem textFrom_delimiter (origin : Origin) (which : Delimiter) (n : Nat) :
    textFrom origin (delimiter which n) = if .delimiter which n = origin then which.text else [] :=
  textFrom_allFrom ..

theorem textFrom_eq_nil_iff {origin : Origin} {ts : List Traced} :
    textFrom origin ts = [] ↔ ∀ t ∈ ts, t.origin ≠ origin := by
  simp [textFrom, textOf]

/-! ## 3. Ends of comments that are broken up -/

/-- The number of places where a comment would end. -/
def terminators (text : List Char) : Nat := text.tails.countP ("*/".toList.isPrefixOf ·)

theorem terminators_cons (c : Char) (r : List Char) :
    terminators (c :: r) = terminators r + if "*/".toList.isPrefixOf (c :: r) then 1 else 0 := by
  rw [terminators, List.tails_cons, List.countP_cons]
  rfl

/-- Breaks up every end of a comment, as `breakTerminators` does. -/
def broken : List Traced → List Traced
  | s :: t :: r =>
    if s.char = '*' ∧ t.char = '/' then s :: ⟨' ', .gap⟩ :: t :: broken r else s :: broken (t :: r)
  | r => r

theorem breakTerminators_cons_of_not {c d : Char} (h : ¬(c = '*' ∧ d = '/')) (r : List Char) :
    breakTerminators (c :: d :: r) = c :: breakTerminators (d :: r) := by
  rw [breakTerminators]
  rintro r' rfl heq
  exact h ⟨rfl, (List.cons.inj heq).1⟩

theorem textOf_broken (ts : List Traced) : textOf (broken ts) = breakTerminators (textOf ts) := by
  fun_induction broken ts with
  | case1 s t r h ih =>
    obtain ⟨hs, ht⟩ := h
    simp [hs, ht, breakTerminators, ih]
  | case2 s t r h ih =>
    rw [textOf_cons, ih, textOf_cons, textOf_cons, textOf_cons, breakTerminators_cons_of_not h]
  | case3 r h =>
    match r, h with
    | [], _ => rfl
    | [t], _ => simp [breakTerminators]
    | s :: t :: r, h => exact absurd rfl (h s t r)

/-- `*/` starts at a character exactly if it is an asterisk with a slash behind it. -/
theorem starts_iff {c : Char} {r : List Char} :
    "*/".toList.isPrefixOf (c :: r) = true ↔ c = '*' ∧ r.head? = some '/' := by
  rw [List.isPrefixOf_iff_prefix, show "*/".toList = '*' :: ['/'] from rfl, List.cons_prefix_cons]
  cases r with
  | nil => simp
  | cons d r => simp [List.cons_prefix_cons, eq_comm]

/-- Breaking up the ends of comments leaves everything where it comes from. -/
theorem textFrom_broken {origin : Origin} (h : origin ≠ .gap) (ts : List Traced) :
    textFrom origin (broken ts) = textFrom origin ts := by
  fun_induction broken ts with
  | case1 s t r hend ih => simp [textFrom_cons, ih, h.symm]
  | case2 s t r hend ih => rw [textFrom_cons, ih, ← textFrom_cons]
  | case3 => rfl

/-- It puts in one character for each of them, -/
theorem length_textFrom_gap_broken (ts : List Traced) :
    (textFrom .gap (broken ts)).length = (textFrom .gap ts).length + terminators (textOf ts) := by
  fun_induction broken ts with
  | case1 s t r hend ih =>
    have hstarts : "*/".toList.isPrefixOf (s.char :: t.char :: textOf r) = true :=
      starts_iff.mpr ⟨hend.1, by simp [hend.2]⟩
    have hbehind : "*/".toList.isPrefixOf (t.char :: textOf r) = false := by
      rw [← Bool.not_eq_true, starts_iff, hend.2]
      simp
    simp only [textFrom_cons, textOf_cons, terminators_cons, hstarts, hbehind, if_true]
    split <;> split <;> simp only [List.length_cons, ih] <;> simp <;> omega
  | case2 s t r hend ih =>
    have hstarts : "*/".toList.isPrefixOf (s.char :: textOf (t :: r)) = false := by
      rw [← Bool.not_eq_true, starts_iff]
      simpa using hend
    rw [textFrom_cons, textFrom_cons, textOf_cons s, terminators_cons, hstarts]
    split <;> simp [ih]
    omega
  | case3 r h =>
    match r, h with
    | [], _ => rfl
    | [t], _ =>
      rw [textOf_cons, terminators_cons]
      simp [terminators]
    | s :: t :: r, h => exact absurd rfl (h s t r)

/-- and what it puts in are spaces. -/
theorem mem_textFrom_gap_broken {ts : List Traced} {c : Char} (h : c ∈ textFrom .gap (broken ts)) :
    c ∈ textFrom .gap ts ∨ c = ' ' := by
  fun_induction broken ts with
  | case1 s t r hend ih =>
    simp only [textFrom_cons] at h ih ⊢
    grind
  | case2 s t r hend ih =>
    rw [textFrom_cons] at h ⊢
    grind
  | case3 => exact .inl h

theorem head?_breakTerminators (s : List Char) : (breakTerminators s).head? = s.head? := by
  unfold breakTerminators
  split <;> rfl

/-- Broken up, a text has no end of a comment. -/
theorem not_infix_breakTerminators (s : List Char) : ¬"*/".toList <:+: breakTerminators s := by
  fun_induction breakTerminators s with
  | case1 r ih =>
    simp only [List.infix_cons_iff, ← List.isPrefixOf_iff_prefix, starts_iff]
    simpa using ih
  | case2 c r h ih =>
    rw [List.infix_cons_iff, ← List.isPrefixOf_iff_prefix, starts_iff, head?_breakTerminators]
    rintro (⟨rfl, hslash⟩ | hinside)
    · obtain ⟨r, rfl⟩ := List.head?_eq_some_iff.mp hslash
      exact h r rfl rfl
    · exact ih hinside
  | case3 => decide

/-! ## 4. One search -/

/-- A piece of a traced text that has been searched: `Segment`, with the origins of the characters. -/
inductive Piece where
  | kept (letter : Traced)
  | found (lead : Nat) (letters : List Traced)

namespace Piece

/-- The letters that the piece covers. -/
def letters : Piece → List Traced
  | kept t => [t]
  | found _ ts => ts

def isFound : Piece → Bool
  | kept _ => false
  | found .. => true

/-- The piece without the origins. -/
def segment : Piece → Segment Nat
  | kept t => .kept t.char
  | found lead ts => .found lead (textOf ts)

/-- A piece, with its statement in the comment of the number if it is a find. -/
def commentedOut (comment : Nat) : Piece → List Traced
  | kept t => [t]
  | found lead ts =>
    ts.take lead ++ delimiter .opener comment ++ broken (ts.drop lead) ++ delimiter .closer comment

end Piece

/-- Divides a traced text like a text. -/
def divide : List (Segment Nat) → List Traced → List Piece
  | .kept _ :: pieces, t :: ts => .kept t :: divide pieces ts
  | .found lead s :: pieces, ts => .found lead (ts.take s.length) :: divide pieces (ts.drop s.length)
  | _, _ => []

/-- The pieces put together, with comments around the finds.  The comments are numbered from the given number
on. -/
def commentPieces : Nat → List Piece → List Traced
  | _, [] => []
  | comment, p :: ps =>
    p.commentedOut comment ++ commentPieces (if p.isFound then comment + 1 else comment) ps

/-- A traced text, and how many comments have been made in it. -/
structure Draft where
  letters : List Traced
  comments : Nat

namespace Draft

/-- A text before anything is put into it. -/
def ofSource (source : List Char) : Draft := ⟨allFrom .source source, 0⟩

/-- The pieces of a search. -/
def pieces (d : Draft) (find : Finder Nat) : List Piece :=
  divide (segments find (textOf d.letters)) d.letters

/-- Puts everything that the finder finds into comments. -/
def commentOut (d : Draft) (find : Finder Nat) : Draft :=
  ⟨commentPieces d.comments (d.pieces find), d.comments + (d.pieces find).countP Piece.isFound⟩

end Draft

/-- The three searches on a source, with the origins of all characters. -/
def tracedReferences (source package : String) : Draft :=
  (statementFinders package.toList).foldl Draft.commentOut (.ofSource source.toList)

theorem divide_eq {pieces : List (Segment Nat)} {ts : List Traced}
    (h : pieces.flatMap Segment.text = textOf ts) :
    (divide pieces ts).map Piece.segment = pieces ∧ (divide pieces ts).flatMap Piece.letters = ts := by
  induction pieces generalizing ts with
  | nil =>
    obtain rfl : ts = [] := by simpa [textOf] using h.symm
    exact ⟨rfl, rfl⟩
  | cons p pieces ih =>
    match p, ts with
    | .kept c, [] => cases h
    | .kept c, t :: ts =>
      obtain ⟨rfl, hbehind⟩ := List.cons.inj h
      obtain ⟨hsegments, hletters⟩ := ih hbehind
      simp [divide, Piece.segment, Piece.letters, hsegments, hletters]
    | .found lead s, ts =>
      rw [List.flatMap_cons, show Segment.text (.found lead s) = s from rfl] at h
      have hfirst : textOf (ts.take s.length) = s := by
        rw [textOf, List.map_take, ← textOf, ← h, List.take_left]
      have hbehind : pieces.flatMap Segment.text = textOf (ts.drop s.length) := by
        rw [textOf, List.map_drop, ← textOf, ← h, List.drop_left]
      obtain ⟨hsegments, hletters⟩ := ih hbehind
      simp [divide, Piece.segment, Piece.letters, hsegments, hletters, hfirst]

section Pieces

variable {find : Finder Nat}

theorem Draft.segment_pieces (h : find.Advances) (d : Draft) :
    (d.pieces find).map Piece.segment = segments find (textOf d.letters) :=
  (divide_eq (flatMap_text_segments h _)).1

theorem Draft.letters_pieces (h : find.Advances) (d : Draft) :
    (d.pieces find).flatMap Piece.letters = d.letters :=
  (divide_eq (flatMap_text_segments h _)).2

end Pieces

theorem textOf_commentedOut (comment : Nat) (p : Piece) :
    textOf (p.commentedOut comment) = p.segment.commentedOut := by
  cases p with
  | kept t => rfl
  | found lead ts =>
    simp only [Piece.commentedOut, Piece.segment, Segment.commentedOut, textOf_append, textOf_broken,
      delimiter, textOf_allFrom, Delimiter.text]
    simp only [textOf, List.map_take, List.map_drop]

theorem textOf_commentPieces (comment : Nat) (ps : List Piece) :
    textOf (commentPieces comment ps) = (ps.map Piece.segment).flatMap Segment.commentedOut := by
  induction ps generalizing comment with
  | nil => rfl
  | cons p ps ih =>
    rw [commentPieces, textOf_append, textOf_commentedOut, ih, List.map_cons, List.flatMap_cons]

theorem countP_isFound (ps : List Piece) :
    ps.countP Piece.isFound = countFound (ps.map Piece.segment) := by
  rw [countFound, List.countP_map]
  refine List.countP_congr fun p _ => ?_
  cases p <;> simp [Piece.isFound, Piece.segment, Segment.isFound, Segment.value?]

/-- **One search**: without the origins it is the search of the text. -/
theorem text_commentOut {find : Finder Nat} (h : find.Advances) (d : Draft) :
    commentOutAll find (textOf d.letters) =
      (textOf (d.commentOut find).letters, (d.pieces find).countP Piece.isFound) := by
  rw [Draft.commentOut, textOf_commentPieces, countP_isFound, d.segment_pieces h]
  rfl

theorem text_ofSource (source : List Char) : textOf (Draft.ofSource source).letters = source :=
  textOf_allFrom ..

/-- One search after the other.  The number is that of the finds before. -/
def commentOutBy : List (Finder Nat) → List Char → Nat → List Char × Nat
  | [], text, count => (text, count)
  | find :: finds, text, count =>
    commentOutBy finds (commentOutAll find text).1 (count + (commentOutAll find text).2)

theorem commentOutBy_eq_foldl (finds : List (Finder Nat)) (text : List Char) (count : Nat) :
    commentOutBy finds text count = finds.foldl (fun (text, total) find =>
      ((commentOutAll find text).1, total + (commentOutAll find text).2)) (text, count) := by
  induction finds generalizing text count with
  | nil => rfl
  | cons find finds ih => exact ih ..

theorem commentOutReferences_eq (source package : String) :
    commentOutReferences source package =
      ⟨String.ofList (commentOutBy (statementFinders package.toList) source.toList 0).1,
        (commentOutBy (statementFinders package.toList) source.toList 0).2⟩ := by
  rw [commentOutBy_eq_foldl, commentOutReferences]

theorem text_foldl_commentOut {finds : List (Finder Nat)} (h : ∀ find ∈ finds, find.Advances) (d : Draft) :
    commentOutBy finds (textOf d.letters) d.comments =
      (textOf (finds.foldl Draft.commentOut d).letters, (finds.foldl Draft.commentOut d).comments) := by
  induction finds generalizing d with
  | nil => rfl
  | cons find finds ih =>
    obtain ⟨hfind, hrest⟩ := List.forall_mem_cons.mp h
    rw [List.foldl_cons, ← ih hrest, commentOutBy, text_commentOut hfind]
    rfl

/-- **All three searches**: without the origins they are those of the text. -/
theorem text_tracedReferences (source package : String) :
    commentOutReferences source package =
      ⟨String.ofList (textOf (tracedReferences source package).letters),
        (tracedReferences source package).comments⟩ := by
  have hfinds : ∀ find ∈ statementFinders package.toList, find.Advances :=
    fun find => statementFinders_advance
  have hrun := text_foldl_commentOut hfinds (.ofSource source.toList)
  rw [text_ofSource, show (Draft.ofSource source.toList).comments = 0 from rfl] at hrun
  rw [commentOutReferences_eq, hrun, tracedReferences]

/-! ## 5. What comes from where -/

/-- The number of ends of comments in the statement, if the piece is a find. -/
def Text.Segment.terminators : Segment Nat → Nat
  | .kept _ => 0
  | .found lead s => PackageRefs.terminators (s.drop lead)

/-- The number of ends of comments that the searches break up, one search after the other. -/
def terminatorsBroken : List (Finder Nat) → List Char → Nat
  | [], _ => 0
  | find :: finds, text =>
    ((segments find text).map Segment.terminators).sum + terminatorsBroken finds (commentOutAll find text).1

theorem textFrom_take_drop (origin : Origin) (n : Nat) (ts : List Traced) :
    textFrom origin (ts.take n) ++ textFrom origin (ts.drop n) = textFrom origin ts := by
  rw [← textFrom_append, List.take_append_drop]

theorem textFrom_source_commentedOut (comment : Nat) (p : Piece) :
    textFrom .source (p.commentedOut comment) = textFrom .source p.letters := by
  cases p with
  | kept t => rfl
  | found lead ts =>
    simp [Piece.commentedOut, Piece.letters, textFrom_delimiter, textFrom_broken, textFrom_take_drop]

/-- Comments take nothing of the source, and put nothing into it. -/
theorem textFrom_source_commentPieces (comment : Nat) (ps : List Piece) :
    textFrom .source (commentPieces comment ps) = textFrom .source (ps.flatMap Piece.letters) := by
  induction ps generalizing comment with
  | nil => rfl
  | cons p ps ih =>
    rw [commentPieces, textFrom_append, textFrom_source_commentedOut, ih, List.flatMap_cons, textFrom_append]

theorem length_textFrom_gap_commentPieces (comment : Nat) (ps : List Piece) :
    (textFrom .gap (commentPieces comment ps)).length =
      (textFrom .gap (ps.flatMap Piece.letters)).length +
        ((ps.map Piece.segment).map Segment.terminators).sum := by
  induction ps generalizing comment with
  | nil => rfl
  | cons p ps ih =>
    have hpiece : (textFrom .gap (p.commentedOut comment)).length =
        (textFrom .gap p.letters).length + p.segment.terminators := by
      cases p with
      | kept t => rfl
      | found lead ts =>
        have hparts := congrArg List.length (textFrom_take_drop .gap lead ts)
        rw [List.length_append] at hparts
        simp only [Piece.commentedOut, Piece.letters, Piece.segment, Segment.terminators, textFrom_append,
          textFrom_delimiter, reduceCtorEq, if_false, List.append_nil, List.length_append,
          length_textFrom_gap_broken]
        rw [← hparts, textOf, textOf, List.map_drop, Nat.add_assoc]
    rw [commentPieces, textFrom_append, List.length_append, hpiece, ih, List.flatMap_cons, textFrom_append,
      List.length_append, List.map_cons, List.map_cons, List.sum_cons]
    omega

theorem mem_textFrom_gap_commentPieces {comment : Nat} {ps : List Piece} {c : Char}
    (h : c ∈ textFrom .gap (commentPieces comment ps)) :
    c ∈ textFrom .gap (ps.flatMap Piece.letters) ∨ c = ' ' := by
  induction ps generalizing comment with
  | nil => cases h
  | cons p ps ih =>
    have hpiece : c ∈ textFrom .gap (p.commentedOut comment) → c ∈ textFrom .gap p.letters ∨ c = ' ' := by
      cases p with
      | kept t => exact .inl
      | found lead ts =>
        simp only [Piece.commentedOut, Piece.letters, textFrom_append, textFrom_delimiter, reduceCtorEq,
          if_false, List.append_nil, List.mem_append, ← textFrom_take_drop .gap lead ts]
        rintro (htake | hdrop)
        · exact .inl (.inl htake)
        · exact (mem_textFrom_gap_broken hdrop).imp_left .inr
    rw [commentPieces, textFrom_append, List.mem_append] at h
    rw [List.flatMap_cons, textFrom_append, List.mem_append]
    rcases h with h | h
    · exact (hpiece h).imp_left .inl
    · exact (ih h).imp_left .inr

/-- What is around the comment of a find is there once, and what is around other comments stays. -/
theorem textFrom_delimiter_commentedOut {comment lead : Nat} {ts : List Traced} {which : Delimiter}
    (h : textFrom (.delimiter which comment) ts = []) (n : Nat) :
    textFrom (.delimiter which n) (Piece.commentedOut comment (.found lead ts)) =
      if comment = n then which.text else textFrom (.delimiter which n) ts := by
  have hparts := textFrom_take_drop (.delimiter which n) lead ts
  have hbroken : textFrom (.delimiter which n) (broken (ts.drop lead)) =
      textFrom (.delimiter which n) (ts.drop lead) := textFrom_broken (by simp) _
  simp only [Piece.commentedOut, textFrom_append, textFrom_delimiter, hbroken, Origin.delimiter.injEq]
  by_cases hn : comment = n
  · subst hn
    obtain ⟨htake, hdrop⟩ := List.append_eq_nil_iff.mp (hparts.trans h)
    rw [htake, hdrop, if_pos rfl]
    cases which <;> simp
  · simp [hn, hparts]

/-- What is around a new comment is in the text once, and what is around the old ones stays. -/
theorem textFrom_delimiter_commentPieces {comment : Nat} {ps : List Piece} {which : Delimiter}
    (h : ∀ n, comment ≤ n → textFrom (.delimiter which n) (ps.flatMap Piece.letters) = []) (n : Nat) :
    textFrom (.delimiter which n) (commentPieces comment ps) =
      if comment ≤ n ∧ n < comment + ps.countP Piece.isFound then which.text
      else textFrom (.delimiter which n) (ps.flatMap Piece.letters) := by
  induction ps generalizing comment with
  | nil =>
    rw [if_neg (by simp)]
    rfl
  | cons p ps ih =>
    simp only [List.flatMap_cons, textFrom_append, List.append_eq_nil_iff] at h
    rw [commentPieces, textFrom_append, List.flatMap_cons, textFrom_append]
    cases p with
    | kept t =>
      simp only [Piece.isFound, Bool.false_eq_true, if_false, List.countP_cons, Nat.add_zero]
      rw [ih fun n hn => (h n hn).2]
      split
      · rename_i hnew
        rw [show textFrom _ (Piece.commentedOut comment (.kept t)) = [] from (h n hnew.1).1]
        rfl
      · rfl
    | found lead ts =>
      simp only [Piece.isFound, if_true, List.countP_cons]
      have hfresh : ∀ n, comment ≤ n → textFrom (.delimiter which n) ts = [] := fun n hn => (h n hn).1
      rw [ih fun n hn => (h n (Nat.le_of_succ_le hn)).2,
        textFrom_delimiter_commentedOut (hfresh comment (Nat.le_refl _))]
      by_cases hn : comment = n
      · -- the find's own comment has the first number
        subst hn
        rw [if_pos rfl, if_neg (by omega), if_pos (by omega), (h comment (Nat.le_refl _)).2, List.append_nil]
      · rw [if_neg hn]
        by_cases hnew : comment + 1 ≤ n ∧ n < comment + 1 + ps.countP Piece.isFound
        · rw [if_pos hnew, if_pos (by omega), hfresh n (by omega), List.nil_append]
        · rw [if_neg hnew, if_neg (by omega)]
          rfl

/-- What is known of the origins in a draft: nothing of the source is lost, each comment has what stands around
it once, and the gaps are so many spaces. -/
structure Draft.Accounts (source : List Char) (gaps : Nat) (d : Draft) : Prop where
  source : textFrom .source d.letters = source
  delimiter : ∀ which n,
    textFrom (.delimiter which n) d.letters = if n < d.comments then which.text else []
  gap : textFrom .gap d.letters = List.replicate gaps ' '

theorem Draft.accounts_ofSource (source : List Char) : (Draft.ofSource source).Accounts source 0 where
  source := by simp [Draft.ofSource, textFrom_allFrom]
  delimiter := by simp [Draft.ofSource, textFrom_allFrom]
  gap := by simp [Draft.ofSource, textFrom_allFrom]

/-- One search keeps the account. -/
theorem Draft.Accounts.commentOut {source : List Char} {gaps : Nat} {d : Draft} (h : d.Accounts source gaps)
    {find : Finder Nat} (hfind : find.Advances) :
    (d.commentOut find).Accounts source
      (gaps + ((segments find (textOf d.letters)).map Segment.terminators).sum) where
  source := by
    rw [Draft.commentOut, textFrom_source_commentPieces, d.letters_pieces hfind, h.source]
  delimiter which n := by
    have hfresh : ∀ n, d.comments ≤ n →
        textFrom (.delimiter which n) ((d.pieces find).flatMap Piece.letters) = [] := by
      intro n hn
      rw [d.letters_pieces hfind, h.delimiter, if_neg (Nat.not_lt.mpr hn)]
    rw [Draft.commentOut, textFrom_delimiter_commentPieces hfresh, d.letters_pieces hfind, h.delimiter]
    dsimp only
    by_cases hold : n < d.comments
    · rw [if_neg (by omega), if_pos hold, if_pos (by omega)]
    · by_cases hnew : n < d.comments + (d.pieces find).countP Piece.isFound
      · rw [if_pos (by omega), if_pos hnew]
      · rw [if_neg (by omega), if_neg hold, if_neg hnew]
  gap := by
    rw [List.eq_replicate_iff, Draft.commentOut, length_textFrom_gap_commentPieces, d.letters_pieces hfind,
      h.gap, List.length_replicate, d.segment_pieces hfind]
    refine ⟨rfl, fun c hc => ?_⟩
    rcases mem_textFrom_gap_commentPieces hc with hold | hspace
    · rw [d.letters_pieces hfind, h.gap] at hold
      exact List.eq_of_mem_replicate hold
    · exact hspace

/-- All searches keep the account. -/
theorem Draft.Accounts.foldl_commentOut {source : List Char} {gaps : Nat} {d : Draft}
    (h : d.Accounts source gaps) {finds : List (Finder Nat)} (hfinds : ∀ find ∈ finds, find.Advances) :
    (finds.foldl Draft.commentOut d).Accounts source (gaps + terminatorsBroken finds (textOf d.letters)) := by
  induction finds generalizing d gaps with
  | nil => exact h
  | cons find finds ih =>
    obtain ⟨hfind, hrest⟩ := List.forall_mem_cons.mp hfinds
    rw [List.foldl_cons, terminatorsBroken, text_commentOut hfind, ← Nat.add_assoc]
    exact ih (h.commentOut hfind) hrest

theorem accounts_tracedReferences (source package : String) :
    (tracedReferences source package).Accounts source.toList
      (terminatorsBroken (statementFinders package.toList) source.toList) := by
  have hfinds : ∀ find ∈ statementFinders package.toList, find.Advances :=
    fun find => statementFinders_advance
  have hrun := (Draft.accounts_ofSource source.toList).foldl_commentOut hfinds
  rwa [Nat.zero_add, text_ofSource] at hrun

/-! ## 6. How much longer the text becomes -/

/-- The number of bytes of a text. -/
def byteLength (s : List Char) : Nat := (s.flatMap encodeChar).length

theorem utf8ByteSize_eq (s : String) : s.utf8ByteSize = byteLength s.toList := (length_encode s).symm

@[simp] theorem byteLength_cons (c : Char) (s : List Char) :
    byteLength (c :: s) = (encodeChar c).length + byteLength s := by
  simp [byteLength]

@[simp] theorem byteLength_append (s t : List Char) : byteLength (s ++ t) = byteLength s + byteLength t := by
  simp [byteLength]

theorem byteLength_breakTerminators (s : List Char) :
    byteLength (breakTerminators s) = byteLength s + terminators s := by
  fun_induction breakTerminators s with
  | case1 r ih =>
    have hspace : (encodeChar ' ').length = 1 := rfl
    have hfirst : terminators ('*' :: '/' :: r) = terminators r + 1 := by
      rw [terminators_cons, if_pos (starts_iff.mpr ⟨rfl, rfl⟩), terminators_cons,
        if_neg (by rw [starts_iff]; simp), Nat.add_zero]
    simp only [byteLength_cons, hspace, ih, hfirst]
    omega
  | case2 c r h ih =>
    have hnot : ¬"*/".toList.isPrefixOf (c :: r) = true := by
      rw [starts_iff]
      rintro ⟨rfl, hslash⟩
      obtain ⟨r, rfl⟩ := List.head?_eq_some_iff.mp hslash
      exact h r rfl rfl
    rw [byteLength_cons, ih, byteLength_cons, terminators_cons, if_neg hnot]
    omega
  | case3 => rfl

theorem byteLength_commentedOut (p : Segment Nat) :
    byteLength p.commentedOut = byteLength p.text + (if p.isFound then 15 else 0) + p.terminators := by
  cases p with
  | kept c => rfl
  | found lead s =>
    have hopener : byteLength removedOpener = 12 := rfl
    have hcloser : byteLength removedCloser = 3 := rfl
    have hparts : byteLength (s.take lead) + byteLength (s.drop lead) = byteLength s := by
      rw [← byteLength_append, List.take_append_drop]
    simp only [Segment.commentedOut, byteLength_append, byteLength_breakTerminators, hopener, hcloser,
      Segment.text, Segment.isFound, Segment.value?, Option.isSome_some, if_true, Segment.terminators]
    omega

theorem byteLength_flatMap_commentedOut (pieces : List (Segment Nat)) :
    byteLength (pieces.flatMap Segment.commentedOut) =
      byteLength (pieces.flatMap Segment.text) + 15 * countFound pieces +
        (pieces.map Segment.terminators).sum := by
  unfold countFound
  induction pieces with
  | nil => rfl
  | cons p pieces ih =>
    simp only [List.flatMap_cons, byteLength_append, byteLength_commentedOut, ih, List.countP_cons,
      List.map_cons, List.sum_cons]
    split <;> omega

theorem byteLength_commentOutBy {finds : List (Finder Nat)} (h : ∀ find ∈ finds, find.Advances)
    (text : List Char) (count : Nat) :
    byteLength (commentOutBy finds text count).1 + 15 * count =
      byteLength text + 15 * (commentOutBy finds text count).2 + terminatorsBroken finds text := by
  induction finds generalizing text count with
  | nil => rfl
  | cons find finds ih =>
    obtain ⟨hfind, hadvance⟩ := List.forall_mem_cons.mp h
    have hrest := ih hadvance (commentOutAll find text).1 (count + (commentOutAll find text).2)
    have hfirst := byteLength_flatMap_commentedOut (segments find text)
    rw [flatMap_text_segments hfind] at hfirst
    have htext : byteLength (commentOutAll find text).1 = byteLength text +
        15 * (commentOutAll find text).2 + ((segments find text).map Segment.terminators).sum := hfirst
    rw [commentOutBy, terminatorsBroken]
    omega

/-! ## 7. When nothing is found -/

/-- Nothing that the finder looks for starts anywhere in the text. -/
def FindsNothing (find : Finder Nat) (text : List Char) : Prop :=
  ∀ pre rest, text = pre ++ rest → find pre.getLast? rest = none

theorem countFound_eq_zero_iff {find : Finder Nat} (h : find.Advances) {text : List Char} :
    (commentOutAll find text).2 = 0 ↔ FindsNothing find text :=
  countFound_segments_eq_zero_iff h

theorem commentOutAll_of_zero {find : Finder Nat} (h : find.Advances) {text : List Char}
    (hzero : (commentOutAll find text).2 = 0) : (commentOutAll find text).1 = text := by
  have hkept : ∀ p ∈ segments find text, p.commentedOut = p.text := by
    intro p hp
    match p with
    | .kept c => rfl
    | .found lead s =>
      have hcount : countFound (segments find text) = 0 := hzero
      rw [countFound, List.countP_eq_zero] at hcount
      exact absurd rfl (hcount _ hp)
  calc (commentOutAll find text).1
    _ = (segments find text).flatMap Segment.text := List.flatMap_congr hkept
    _ = text := flatMap_text_segments h text

/-- Searches that find nothing leave the text as it is. -/
theorem commentOutBy_of_findsNothing {finds : List (Finder Nat)} (h : ∀ find ∈ finds, find.Advances)
    {text : List Char} (hnothing : ∀ find ∈ finds, FindsNothing find text) (count : Nat) :
    commentOutBy finds text count = (text, count) := by
  induction finds with
  | nil => rfl
  | cons find finds ih =>
    obtain ⟨hfind, hrest⟩ := List.forall_mem_cons.mp h
    obtain ⟨hnone, hothers⟩ := List.forall_mem_cons.mp hnothing
    have hzero := (countFound_eq_zero_iff hfind).mpr hnone
    rw [commentOutBy, hzero, commentOutAll_of_zero hfind hzero]
    exact ih hrest hothers

theorem le_commentOutBy (finds : List (Finder Nat)) (text : List Char) (count : Nat) :
    count ≤ (commentOutBy finds text count).2 := by
  induction finds generalizing text count with
  | nil => exact Nat.le_refl _
  | cons find finds ih => exact (Nat.le_add_right ..).trans (ih ..)

/-- If nothing is counted, none of the searches could have found anything in the text as it was: a search that
finds nothing leaves the text to the next one as it is. -/
theorem findsNothing_of_commentOutBy {finds : List (Finder Nat)} (h : ∀ find ∈ finds, find.Advances)
    {text : List Char} {count : Nat} (hcount : (commentOutBy finds text count).2 = count) :
    ∀ find ∈ finds, FindsNothing find text := by
  induction finds with
  | nil => simp
  | cons find finds ih =>
    obtain ⟨hfind, hrest⟩ := List.forall_mem_cons.mp h
    have hle := le_commentOutBy finds (commentOutAll find text).1 (count + (commentOutAll find text).2)
    rw [commentOutBy] at hcount
    have hzero : (commentOutAll find text).2 = 0 := by omega
    rw [hzero, Nat.add_zero, commentOutAll_of_zero hfind hzero] at hcount
    rw [List.forall_mem_cons]
    exact ⟨(countFound_eq_zero_iff hfind).mp hzero,
      ih hrest hcount⟩

/-! ## 8. The whole edit -/

/-- **Commenting out loses nothing of the source.**  For every source and every package:

* the characters of the result have origins: the source, in its order; for each of the finds that are counted
  one opener and one closer, and no others; and one space for each end of a comment that was broken up.
* So the source is what is left when these are taken out, and the result is longer by fifteen bytes for each
  find and by one for each end of a comment.
* Nothing is counted exactly if none of the three searches could find anything anywhere in the source, and
  then the result is the source. -/
theorem commentOutReferences_loses_nothing (source package : String) :
    (∃ letters : List Traced, textOf letters = (commentOutReferences source package).text.toList ∧
        textFrom .source letters = source.toList ∧
        (∀ n, textFrom (.delimiter .opener n) letters =
          if n < (commentOutReferences source package).count then "/* removed: ".toList else []) ∧
        (∀ n, textFrom (.delimiter .closer n) letters =
          if n < (commentOutReferences source package).count then " */".toList else []) ∧
        textFrom .gap letters =
          List.replicate (terminatorsBroken (statementFinders package.toList) source.toList) ' ') ∧
      source.toList.Sublist (commentOutReferences source package).text.toList ∧
      (commentOutReferences source package).text.utf8ByteSize =
        source.utf8ByteSize + 15 * (commentOutReferences source package).count +
          terminatorsBroken (statementFinders package.toList) source.toList ∧
      ((commentOutReferences source package).count = 0 ↔
        ∀ find ∈ statementFinders package.toList, FindsNothing find source.toList) ∧
      ((commentOutReferences source package).count = 0 →
        (commentOutReferences source package).text = source) := by
  have hfinds : ∀ find ∈ statementFinders package.toList, find.Advances :=
    fun find => statementFinders_advance
  have hresult := commentOutReferences_eq source package
  have htraced := text_tracedReferences source package
  have haccount := accounts_tracedReferences source package
  have hopener := haccount.delimiter .opener
  have hcloser := haccount.delimiter .closer
  have hbytes := byteLength_commentOutBy hfinds source.toList 0
  have hnothing := @findsNothing_of_commentOutBy _ hfinds source.toList 0
  refine ⟨⟨(tracedReferences source package).letters, ?_, haccount.source, ?_, ?_, haccount.gap⟩, ?_, ?_,
    ⟨?_, ?_⟩, ?_⟩
  · rw [htraced, String.toList_ofList]
  · rw [htraced]
    exact hopener
  · rw [htraced]
    exact hcloser
  · rw [htraced, String.toList_ofList]
    exact haccount.source ▸ List.filter_sublist.map Traced.char
  · rw [hresult, utf8ByteSize_eq, utf8ByteSize_eq, String.toList_ofList]
    rwa [Nat.mul_zero, Nat.add_zero] at hbytes
  · rw [hresult]
    exact hnothing
  · intro h
    rw [hresult, commentOutBy_of_findsNothing hfinds h]
  · intro hzero
    rw [hresult] at hzero
    rw [hresult, commentOutBy_of_findsNothing hfinds (hnothing hzero)]
    exact String.ofList_toList

end PackageRefs
