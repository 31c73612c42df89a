/-
# Deleting lines, and the blank lines around them

Of the four searches that delete what mentions a package, the first one deletes lines and the others find
nothing.  Blank lines that stood around a deleted line come together, and `collapseBlankLines` searches for
such places from left to right.  This module says without any search what is left of a text.

A *run* is a stretch of line feeds with nothing but spaces and tabs between them (`IsRun`).  `Shortened`
divides a text into what has no line feed and runs that cannot be made longer, and leaves two line feeds of
each run that has three or more of them.  `shortened_iff`: the search does this, and there is only one way to
do it.

**The result** (`stripReferences_deletes_lines`): the number that is reported is that of the lines that hold
the name; they go, all other lines stay in their order, and the runs among these are shortened.
-/
import PackageRefs.Proofs.Removal.Strip

namespace PackageRefs

open PackageRefs.Text

variable {name : List Char}

/-! ## 1. Runs -/

/-- A space or a tab. -/
def IsSpace (c : Char) : Prop := c = ' ' ∨ c = '\t'

/-- The text starts and ends with a line feed, and there are only spaces and tabs between its line feeds. -/
structure IsRun (run : List Char) : Prop where
  head : run.head? = some '\n'
  last : run.getLast? = some '\n'
  blank : ∀ c ∈ run, c = '\n' ∨ IsSpace c

/-- A run before the text goes on in it: there are only spaces and tabs up to the next line feed. -/
def ContinuesRun (text : List Char) : Prop :=
  ∃ spaces rest, text = spaces ++ '\n' :: rest ∧ ∀ c ∈ spaces, IsSpace c

/-- What is left of a run. -/
def shortRun (run : List Char) : List Char := if 3 ≤ run.count '\n' then ['\n', '\n'] else run

/-- The second text is the first one with its runs shortened.  Every run goes as far as it can: to the right by
`maximal`, and to the left as the run before it does. -/
inductive Shortened : List Char → List Char → Prop
  | unbroken {s : List Char} (unbroken : '\n' ∉ s) : Shortened s s
  | run {s run rest short : List Char} (unbroken : '\n' ∉ s) (isRun : IsRun run)
      (maximal : ¬ContinuesRun rest) (behind : Shortened rest short) :
      Shortened (s ++ (run ++ rest)) (s ++ (shortRun run ++ short))

theorem isRun_lineFeed : IsRun ['\n'] := ⟨rfl, rfl, by simp⟩

/-- A run becomes longer by a line feed, with spaces and tabs behind it. -/
theorem IsRun.cons {spaces run : List Char} (h : IsRun run) (hspaces : ∀ c ∈ spaces, IsSpace c) :
    IsRun ('\n' :: (spaces ++ run)) where
  head := rfl
  last := by
    have hne : run ≠ [] := by
      rintro rfl
      cases h.head
    rw [← List.cons_append, List.getLast?_append_of_ne_nil _ hne, h.last]
  blank := by
    intro c hc
    rcases List.mem_cons.mp hc with rfl | hc
    · exact .inl rfl
    · rcases List.mem_append.mp hc with hc | hc
      · exact .inr (hspaces c hc)
      · exact h.blank c hc

theorem not_continuesRun_of_unbroken {s : List Char} (h : '\n' ∉ s) : ¬ContinuesRun s := by
  rintro ⟨spaces, rest, rfl, -⟩
  exact h (by simp)

/-- Up to the first line feed there is something else than spaces and tabs. -/
theorem not_continuesRun_append {s rest : List Char} (h : '\n' ∉ s) (hs : ¬∀ c ∈ s, IsSpace c) :
    ¬ContinuesRun (s ++ rest) := by
  rintro ⟨spaces, more, heq, hspaces⟩
  rcases List.append_eq_append_iff.mp heq with ⟨t, rfl, -⟩ | ⟨t, rfl, ht⟩
  · exact hs fun c hc => hspaces c (List.mem_append_left t hc)
  · match t with
    | [] => exact hs (by simpa using hspaces)
    | c :: t =>
      obtain ⟨rfl, -⟩ := List.cons.inj ht
      exact h (by simp)

/-- Every text can be divided so. -/
theorem exists_shortened (text : List Char) : ∃ short, Shortened text short := by
  induction text with
  | nil => exact ⟨[], .unbroken (by simp)⟩
  | cons c text ih =>
    obtain ⟨short, h⟩ := ih
    by_cases hc : c = '\n'
    · subst hc
      cases h with
      | unbroken unbroken =>
        exact ⟨_, @Shortened.run [] _ _ _ (by simp) isRun_lineFeed
          (not_continuesRun_of_unbroken unbroken) (.unbroken unbroken)⟩
      | @run s run rest short unbroken isRun maximal behind =>
        by_cases hs : ∀ c ∈ s, IsSpace c
        · -- the line feed and the run behind it are one run
          have hlonger := @Shortened.run [] _ _ _ (by simp) (isRun.cons hs) maximal behind
          rw [List.nil_append, List.cons_append, List.append_assoc] at hlonger
          exact ⟨_, hlonger⟩
        · exact ⟨_, @Shortened.run [] _ _ _ (by simp) isRun_lineFeed
            (not_continuesRun_append unbroken hs) (.run unbroken isRun maximal behind)⟩
    · cases h with
      | unbroken unbroken => exact ⟨_, .unbroken (by simp [Ne.symm hc, unbroken])⟩
      | @run s run rest short unbroken isRun maximal behind =>
        exact ⟨_, @Shortened.run (c :: s) _ _ _ (by simp [Ne.symm hc, unbroken]) isRun maximal behind⟩

/-! ## 2. The search for runs -/

theorem isSpace_iff {c : Char} : (c == ' ' || c == '\t') = true ↔ IsSpace c := by
  simp [IsSpace]

/-- Spaces and tabs are passed over up to a line feed. -/
theorem afterSpaces_append {spaces : List Char} (h : ∀ c ∈ spaces, IsSpace c) (rest : List Char) :
    afterSpaces (spaces ++ '\n' :: rest) = '\n' :: rest := by
  unfold afterSpaces
  rw [List.dropWhile_append_of_pos fun c hc => isSpace_iff.mpr (h c hc)]
  rfl

theorem continuesRun_of_afterSpaces {text rest : List Char} (h : afterSpaces text = '\n' :: rest) :
    ContinuesRun text := by
  refine ⟨text.takeWhile fun c => c == ' ' || c == '\t', rest, ?_, fun c hc => ?_⟩
  · rw [← h]
    exact List.takeWhile_append_dropWhile.symm
  · exact isSpace_iff.mp (List.all_eq_true.mp List.all_takeWhile c hc)

/-- What stands behind the first line feed of a run. -/
structure IsRunTail (tail : List Char) : Prop where
  last : tail = [] ∨ tail.getLast? = some '\n'
  blank : ∀ c ∈ tail, c = '\n' ∨ IsSpace c

theorem IsRun.isRunTail {run : List Char} (h : IsRun run) : IsRunTail run := ⟨.inr h.last, h.blank⟩

theorem IsRunTail.of_suffix {tail more : List Char} (h : IsRunTail tail) (hmore : more <:+ tail) :
    IsRunTail more where
  last := by
    obtain ⟨s, rfl⟩ := hmore
    by_cases hne : more = []
    · exact .inl hne
    · rcases h.last with hnil | hlast
      · exact absurd (List.append_eq_nil_iff.mp hnil).2 hne
      · rw [List.getLast?_append_of_ne_nil _ hne] at hlast
        exact .inr hlast
  blank c hc := h.blank c (hmore.mem hc)

theorem IsRunTail.of_cons {c : Char} {tail : List Char} (h : IsRunTail (c :: tail)) : IsRunTail tail :=
  h.of_suffix (List.suffix_cons c tail)

/-- Up to the first line feed of a tail there are spaces and tabs. -/
theorem IsRunTail.exists_lineFeed {tail : List Char} (h : IsRunTail tail) (hne : tail ≠ []) :
    ∃ spaces more, tail = spaces ++ '\n' :: more ∧ (∀ c ∈ spaces, IsSpace c) ∧ IsRunTail more := by
  induction tail with
  | nil => exact absurd rfl hne
  | cons c tail ih =>
    rcases h.blank c (by simp) with rfl | hc
    · exact ⟨[], tail, rfl, by simp, h.of_cons⟩
    · have htail : tail ≠ [] := by
        rintro rfl
        rcases h.last with hnil | hlast
        · cases hnil
        · obtain rfl : c = '\n' := by simpa using hlast
          rcases hc with hc | hc <;> cases hc
      obtain ⟨spaces, more, rfl, hspaces, hmore⟩ := ih h.of_cons htail
      exact ⟨c :: spaces, more, rfl, by simpa using ⟨hc, hspaces⟩, hmore⟩

theorem IsRun.exists_tail {run : List Char} (h : IsRun run) :
    ∃ tail, run = '\n' :: tail ∧ IsRunTail tail := by
  match run, h with
  | [], h => cases h.head
  | c :: tail, h =>
    obtain rfl : c = '\n' := by simpa using h.head
    exact ⟨tail, rfl, h.isRunTail.of_cons⟩

theorem count_spaces {spaces : List Char} (h : ∀ c ∈ spaces, IsSpace c) : spaces.count '\n' = 0 := by
  refine List.count_eq_zero.mpr fun hmem => ?_
  rcases h _ hmem with h | h <;> cases h

/-- **The lines of a run are counted**, and nothing behind it. -/
theorem blankLines_append {tail rest : List Char} (htail : IsRunTail tail) (hrest : ¬ContinuesRun rest)
    {fuel : Nat} (hfuel : tail.count '\n' ≤ fuel) :
    blankLines fuel (tail ++ rest) = (tail.count '\n', rest) := by
  induction fuel generalizing tail with
  | zero =>
    have htail : tail = [] := by
      by_contra hne
      obtain ⟨spaces, more, rfl, -, -⟩ := htail.exists_lineFeed hne
      simp at hfuel
    rw [htail]
    rfl
  | succ fuel ih =>
    by_cases hne : tail = []
    · subst hne
      rw [List.nil_append, blankLines]
      split
      · exact absurd (continuesRun_of_afterSpaces ‹_›) hrest
      · rfl
    · obtain ⟨spaces, more, rfl, hspaces, hmore⟩ := htail.exists_lineFeed hne
      have hcount : (spaces ++ '\n' :: more).count '\n' = more.count '\n' + 1 := by
        rw [List.count_append, count_spaces hspaces, List.count_cons_self, Nat.zero_add]
      rw [hcount] at hfuel ⊢
      have hmore := ih hmore (Nat.le_of_succ_le_succ hfuel)
      rw [List.append_assoc, List.cons_append, blankLines, afterSpaces_append hspaces]
      simp only [hmore]

/-- At the start of a run the search finds the run, if it has three line feeds. -/
theorem blankRunFinder_append {tail rest : List Char} (htail : IsRunTail tail)
    (hrest : ¬ContinuesRun rest) (before : Option Char) :
    blankRunFinder before ('\n' :: (tail ++ rest)) =
      if 3 ≤ ('\n' :: tail).count '\n' then some ((), ('\n' :: tail).length) else none := by
  have hfuel : tail.count '\n' ≤ (tail ++ rest).length :=
    List.count_le_length.trans (by simp)
  have hlength : ('\n' :: (tail ++ rest)).length - rest.length = ('\n' :: tail).length := by
    simp only [List.length_cons, List.length_append]
    omega
  rw [blankRunFinder, blankLines_append htail hrest hfuel, List.count_cons_self]
  simp only [upTo, hlength, Nat.succ_le_succ_iff]

theorem blankRunFinder_of_ne {before : Option Char} {c : Char} {r : List Char} (h : c ≠ '\n') :
    blankRunFinder before (c :: r) = none := by
  unfold blankRunFinder
  split
  · rename_i heq
    exact absurd (List.cons.inj heq).1 h
  · rfl

/-- A short run is kept, and so is every part of it that goes up to its end. -/
theorem blankRunFinder_short {tail rest : List Char} (htail : IsRunTail tail) (hne : tail ≠ [])
    (hrest : ¬ContinuesRun rest) (hshort : ¬3 ≤ tail.count '\n') (before : Option Char) :
    blankRunFinder before (tail ++ rest) = none := by
  match tail with
  | [] => exact absurd rfl hne
  | c :: tail =>
    by_cases hc : c = '\n'
    · subst hc
      rw [List.cons_append, blankRunFinder_append htail.of_cons hrest, if_neg hshort]
    · exact blankRunFinder_of_ne hc

/-! ## 3. Shortening -/

/-- Kept characters stay. -/
theorem flatMap_shortened_kept (s : List Char) : (s.map Segment.kept).flatMap shortened = s := by
  induction s with
  | nil => rfl
  | cons c s ih =>
    rw [List.map_cons, List.flatMap_cons, ih]
    rfl

theorem flatMap_shortened_segmentsFrom {text short : List Char} (h : Shortened text short)
    (before : Option Char) :
    (segmentsFrom blankRunFinder before 0 text).flatMap shortened = short := by
  induction h generalizing before with
  | @unbroken s unbroken =>
    rw [segmentsFrom_of_nothing, flatMap_shortened_kept]
    intro before t ht
    match t with
    | [] => rfl
    | c :: t => exact blankRunFinder_of_ne fun hc => unbroken (hc ▸ ht.mem (by simp))
  | @run s run rest short unbroken isRun maximal behind ih =>
    have hlead : ∀ before t, t <:+ s → t ≠ [] → blankRunFinder before (t ++ (run ++ rest)) = none := by
      intro before t ht hne
      match t with
      | [] => exact absurd rfl hne
      | c :: t => exact blankRunFinder_of_ne fun hc => unbroken (hc ▸ ht.mem (by simp))
    rw [segmentsFrom_append_of_nothing hlead, List.flatMap_append, flatMap_shortened_kept]
    congr 1
    obtain ⟨tail, rfl, htail⟩ := isRun.exists_tail
    unfold shortRun
    split
    · rename_i hlong
      have hfound := blankRunFinder_append htail maximal (s.getLast?.or before)
      rw [if_pos hlong] at hfound
      rw [segmentsFrom_found (by simp) hfound, List.flatMap_cons, ih]
      rfl
    · rename_i hshort
      have hkept : ∀ before t, t <:+ '\n' :: tail → t ≠ [] → blankRunFinder before (t ++ rest) = none := by
        intro before t ht hne
        refine blankRunFinder_short (isRun.isRunTail.of_suffix ht) hne maximal (fun hlong => hshort ?_) before
        exact hlong.trans (ht.sublist.count_le _)
      rw [segmentsFrom_append_of_nothing hkept, List.flatMap_append, flatMap_shortened_kept, ih]

/-- **Runs of blank lines are shortened**: the search leaves what is left of a text when each of its longest
runs is shortened, and nothing else is. -/
theorem shortened_iff {text short : List Char} : Shortened text short ↔ short = collapseBlankLines text := by
  constructor
  · intro h
    exact (flatMap_shortened_segmentsFrom h none).symm
  · rintro rfl
    obtain ⟨short, h⟩ := exists_shortened text
    rwa [← flatMap_shortened_segmentsFrom h none] at h

/- A run of two line feeds stays, with the space in it; one of four becomes one of two. -/
example : collapseBlankLines "a\n \nb\n\n\t\n\n c".toList = "a\n \nb\n\n c".toList := by decide

/-! ## 4. The whole edit -/

theorem linesWithout_of_not_infix (hname : '\n' ∉ name) (hne : name ≠ []) {text : List Char}
    (h : ¬name <:+: text) : linesWithout name text = text := by
  have hlines : (linesOf text).filter (fun line => !occursIn name line) = linesOf text := by
    refine List.filter_eq_self.mpr fun line hline => ?_
    rw [Bool.not_eq_true', occursIn_eq_false_iff]
    rw [← flatten_linesOf text, infix_flatten_iff hname hne (areLines_linesOf text)] at h
    exact fun hinside => h ⟨line, hline, hinside⟩
  rw [linesWithout, hlines, flatten_linesOf]

/-- A text that does not mention the package stays as it is. -/
theorem stripReferences_of_unmentioned {source package : String} (hname : '\n' ∉ package.toList)
    (hne : package.toList ≠ []) (h : ¬package.toList <:+: source.toList) :
    stripReferences source package = ⟨source, 0⟩ := by
  have hcount : (linesOf source.toList).countP (occursIn package.toList) = 0 :=
    Nat.eq_zero_of_not_pos fun hpos => h ((countP_occursIn_pos_iff hname hne).mp hpos)
  rw [stripReferences_eq hname hne, hcount, linesWithout_of_not_infix hname hne h]
  exact congrArg (Edited.mk · 0) String.ofList_toList

/-- In what mentions the package no more, the searches for strings, calls and properties find nothing. -/
theorem mentionFinders_tail_of_not_infix {text : List Char} (h : ¬name <:+: text) {find : Finder Unit}
    (hfind : find ∈ (mentionFinders name).tail) {before : Option Char} {t : List Char} (ht : t <:+ text) :
    find before t = none := by
  refine Option.not_isSome_iff_eq_none.mp fun hfound => h (List.IsInfix.trans ?_ ht.isInfix)
  simp only [mentionFinders, List.tail_cons, List.mem_cons, List.not_mem_nil, or_false] at hfind
  rcases hfind with rfl | rfl | rfl
  · exact infix_of_stringFinder hfound
  · exact infix_of_callFinder hfound
  · exact infix_of_propertyFinder hfound

/-- **Deleting what mentions a package is deleting lines.**  Let the name of the package be not empty and
without a line feed.  The source consists of lines, each with its line feed but perhaps for the last.

* The number that is reported is that of the lines that hold the name.
* If there is none, the text is the source.  Else it is the other lines in their order, with their runs
  shortened.
* The searches for strings, calls and properties find nothing anywhere in the other lines.
* Doing it again changes nothing and reports nothing. -/
theorem stripReferences_deletes_lines (source package : String) (hne : package ≠ "")
    (hline : '\n' ∉ package.toList) :
    let lines := linesOf source.toList
    let others := (lines.filter fun line => !occursIn package.toList line).flatten
    let result := stripReferences source package
    (AreLines lines ∧ lines.flatten = source.toList) ∧
      result.count = lines.countP (occursIn package.toList) ∧
      (result.count = 0 → result.text = source) ∧
      (result.count ≠ 0 → Shortened others result.text.toList) ∧
      (∀ find ∈ [stringFinder package.toList, callFinder package.toList, propertyFinder package.toList],
        ∀ before text, text <:+ others → find before text = none) ∧
      stripReferences result.text package = ⟨result.text, 0⟩ := by
  intro lines others result
  have hname : package.toList ≠ [] := by rwa [ne_eq, String.toList_eq_nil_iff]
  have hresult := @stripReferences_eq source package hline hname
  have hcount : result.count = lines.countP (occursIn package.toList) := congrArg Edited.count hresult
  refine ⟨⟨areLines_linesOf _, flatten_linesOf _⟩, hcount, fun hzero => ?_, fun hpos => ?_, ?_, ?_⟩
  · have hnone : ¬package.toList <:+: source.toList := by
      rw [← countP_occursIn_pos_iff hline hname]
      exact Nat.not_lt.mpr (Nat.le_of_eq (hcount.symm.trans hzero))
    exact congrArg Edited.text (stripReferences_of_unmentioned hline hname hnone)
  · have htext : result.text.toList = collapseBlankLines others := by
      have hnonzero : (lines.countP (occursIn package.toList) == 0) = false :=
        beq_false_of_ne (hcount ▸ hpos)
      rw [show result = _ from hresult]
      dsimp only
      rw [hnonzero, if_neg Bool.false_ne_true, String.toList_ofList]
      rfl
    exact shortened_iff.mpr htext
  · intro find hfind before text htext
    exact mentionFinders_tail_of_not_infix (not_infix_linesWithout hline hname _) hfind htext
  · exact stripReferences_of_unmentioned hline hname (not_infix_stripReferences hline hname)

namespace Example

/-- A name that would be a pattern of its own, in a line that ends with a carriage return, between blank lines,
and in a last line without a line feed. -/
def littered : String := "f(1);\n\n g('a.b*');\r\n \n\nh('a.bb');\na.b*"

/-- Two of the lines go; what mentions a similar name stays. -/
theorem littered_stripped :
    "a.b*" ≠ "" ∧ '\n' ∉ "a.b*".toList ∧
      stripReferences littered "a.b*" = ⟨"f(1);\n\nh('a.bb');\n", 2⟩ ∧
      Shortened "f(1);\n\n \n\nh('a.bb');\n".toList "f(1);\n\nh('a.bb');\n".toList ∧
      stripReferences "f(1);\n\nh('a.bb');\n" "a.b*" = ⟨"f(1);\n\nh('a.bb');\n", 0⟩ := by
  have hne : "a.b*" ≠ "" := by decide
  have hline : '\n' ∉ "a.b*".toList := by decide
  have hresult : stripReferences littered "a.b*" = ⟨"f(1);\n\nh('a.bb');\n", 2⟩ := by decide +kernel
  have hothers : ((linesOf littered.toList).filter fun line => !occursIn "a.b*".toList line).flatten =
      "f(1);\n\n \n\nh('a.bb');\n".toList := by decide +kernel
  obtain ⟨-, -, -, hshortened, -, hagain⟩ := stripReferences_deletes_lines littered "a.b*" hne hline
  rw [hresult] at hshortened hagain
  rw [hothers] at hshortened
  exact ⟨hne, hline, hresult, hshortened (by decide), hagain⟩

end Example

end PackageRefs
