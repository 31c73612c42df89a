/-
# How far a search sees in a plain script

A search goes over the whole text and knows nothing of its lines, so that what it finds stays on a line has to
be proved.  `Stops` of `Proofs/Removal/Finds` says what that takes, and here it is shown for

* the end of a literal (`stops_mark`), and
* a line break before a line of each kind (`stops_slash`, `stops_literal`, `stops_code`).

A line that makes no request of the package is `Mute`: no string in it holds the package.  What is left are the
lines with a text of their own (`Frame`), line comments and literals: they stay plain, whatever is put into
comments in their text (`Frame.isPlain_line`).
-/
import PackageRefs.Proofs.Plain.Spoil
import PackageRefs.Proofs.Removal.Finds

namespace PackageRefs.Plain

open PackageRefs.Script PackageRefs.Text

section

variable {package text : List Char} {l : Line}

/-! ## 1. Strings in a line -/

theorem isQuote_of_isRequestChar {c : Char} (h : isRequestChar c = true) : isQuote c = false := by
  have hall := forall_ascii (p := fun c => !isRequestChar c || !isQuote c) (by decide +kernel) (lt_of_isRequestChar h)
  simpa [h] using hall

theorem isUnquoted_of_isRequestChar {c : Char} (h : isRequestChar c = true) : isUnquoted c = true := by
  have hall := forall_ascii (p := fun c => !isRequestChar c || isUnquoted c) (by decide +kernel)
    (lt_of_isRequestChar h)
  simpa [h] using hall

theorem isSettingChar_of_isNameTail {c : Char} (h : isNameTail c = true) :
    isSettingChar c = true ∧ isImportChar c = true ∧ isQuote c = false := by
  have hall := forall_ascii (p := fun c => !isNameTail c || (isSettingChar c && isImportChar c && !isQuote c))
    (by decide +kernel) (lt_of_isNameTail h)
  simpa [h, and_assoc] using hall

theorem isNameTail_of_isName {w : String} (h : isName w = true) : ∀ c ∈ w.toList, isNameTail c = true := by
  obtain ⟨c, tail, hw, hc, htail⟩ := exists_of_isName h
  rw [hw]
  refine List.forall_mem_cons.mpr ⟨?_, List.all_eq_true.mp htail⟩
  rw [isNameHead, Bool.or_eq_true] at hc
  rw [isNameTail, isAsciiAlphanumeric, Bool.or_eq_true, Bool.or_eq_true]
  exact hc.imp_left .inl

/-- No string that holds the package starts in the text. -/
def Mute (package text : List Char) : Prop := ∀ v, v <:+ text → quoted? package v = none

theorem quoted?_eq_none {c : Char} (h : isQuote c = false) (r : List Char) : quoted? package (c :: r) = none := by
  simp [quoted?, h]

theorem mute_of_free (h : ∀ c ∈ text, isQuote c = false) : Mute package text := by
  intro v hv
  cases v with
  | nil => rfl
  | cons c r => exact quoted?_eq_none (h c (hv.subset (List.mem_cons_self ..))) r

/-- A text with two quotes has one string. -/
theorem eq_of_quoted {a z b p inner r : List Char} {q d : Char} (ha : ∀ c ∈ a, isQuote c = false)
    (hz : ∀ c ∈ z, isQuote c = false) (hb : ∀ c ∈ b, isQuote c = false) (hq : isQuote q = true)
    (hd : isQuote d = true) (hinner : ∀ c ∈ inner, isUnquoted c = true)
    (h : p ++ q :: (inner ++ d :: r) = a ++ '"' :: (z ++ '"' :: b)) : p = a ∧ q = '"' ∧ inner = z ∧ d = '"' ∧ r = b := by
  have hfree {s : List Char} (hs : ∀ c ∈ s, isQuote c = false) : ∀ c ∈ s, ¬isQuote c = true :=
    fun c hc => by simp [hs c hc]
  have hunquoted : ∀ c ∈ inner, ¬isQuote c = true := fun c hc hquote => by
    have := hinner c hc
    rw [isUnquoted_of_isQuote hquote] at this
    cases this
  obtain ⟨x, rfl, hx⟩ := exists_append_of_free (hfree ha) hq h
  cases x with
  | nil =>
    obtain ⟨rfl, hbehind⟩ := List.cons.inj hx
    have hend : isQuote '"' = true := by decide
    obtain ⟨y, hy, hrest⟩ := exists_append_of_free (hfree hz) hd hbehind
    cases y with
    | nil =>
      obtain ⟨rfl, rfl⟩ := List.cons.inj hrest
      exact ⟨by simp, rfl, by simpa using hy, rfl, rfl⟩
    | cons e y =>
      obtain ⟨rfl, -⟩ := List.cons.inj hrest
      exact absurd hend (hunquoted '"' (by simp [hy]))
  | cons e x =>
    -- the string would start at the second quote, and end behind all quotes
    obtain ⟨rfl, hbehind⟩ := List.cons.inj hx
    obtain ⟨y, rfl, hrest⟩ := exists_append_of_free (hfree hz) hq hbehind
    have hmem : d ∈ b := by
      cases y with
      | nil =>
        obtain ⟨-, rfl⟩ := List.cons.inj hrest
        simp
      | cons e y =>
        obtain ⟨-, rfl⟩ := List.cons.inj hrest
        simp
    rw [hb d hmem] at hd
    cases hd

/-- The text has no quotes, or one string, and that does not hold the package. -/
inductive Told (package : List Char) : List Char → Prop
  | none {a : List Char} (ha : ∀ c ∈ a, isQuote c = false) : Told package a
  | one {a z b : List Char} (ha : ∀ c ∈ a, isQuote c = false) (hz : ∀ c ∈ z, isQuote c = false)
      (hb : ∀ c ∈ b, isQuote c = false) (hpackage : ¬package <:+: z) :
      Told package (a ++ (Expr.inQuotes z ++ b))

theorem Told.wrap (h : Told package text) {front back : List Char} (hfront : ∀ c ∈ front, isQuote c = false)
    (hback : ∀ c ∈ back, isQuote c = false) : Told package (front ++ (text ++ back)) := by
  have hboth {s t : List Char} (hs : ∀ c ∈ s, isQuote c = false) (ht : ∀ c ∈ t, isQuote c = false) :
      ∀ c ∈ s ++ t, isQuote c = false := fun c hc => (List.mem_append.mp hc).elim (hs c) (ht c)
  cases h with
  | none ha => exact .none (hboth hfront (hboth ha hback))
  | @one a z b ha hz hb hpackage =>
    have htext : front ++ (a ++ (Expr.inQuotes z ++ b) ++ back) = (front ++ a) ++ (Expr.inQuotes z ++ (b ++ back)) := by
      simp
    exact htext ▸ .one (hboth hfront ha) hz (hboth hb hback) hpackage

theorem Told.mute (hpackage : ∀ c ∈ package, isUnquoted c = true) (h : Told package text) : Mute package text := by
  cases h with
  | none ha => exact mute_of_free ha
  | @one a z b ha hz hb hnot =>
    intro v hv
    refine Option.eq_none_iff_forall_ne_some.mpr fun r hquoted => ?_
    obtain ⟨q, inner, d, rfl, hq, hd, hinner, hholds⟩ := (quoted?_eq_some_iff hpackage).mp hquoted
    obtain ⟨p, hp⟩ := hv
    have hshape : a ++ (Expr.inQuotes z ++ b) = a ++ '"' :: (z ++ '"' :: b) := by simp [Expr.inQuotes]
    obtain ⟨-, -, rfl, -⟩ := eq_of_quoted ha hz hb hq hd hinner (hp.trans hshape)
    exact hnot hholds

/-- No request in the line holds the package. -/
def Unrelated (package : List Char) (l : Line) : Prop := ∀ request ∈ l.requests, ¬package <:+: request.toList

theorem told_required {request : String} (hrequest : isRequest request = true) (hquiet : ¬package <:+: request.toList) :
    Told package (Expr.inQuotes request.toList) := by
  have hfree : ∀ c ∈ request.toList, isQuote c = false :=
    fun c hc => isQuote_of_isRequestChar (List.all_eq_true.mp hrequest c hc)
  simpa using Told.one (a := []) (b := []) (by simp) hfree (by simp) hquiet

theorem isQuote_of_isName {w : String} (h : isName w = true) : ∀ c ∈ w.toList, isQuote c = false :=
  fun c hc => (isSettingChar_of_isNameTail (isNameTail_of_isName h c hc)).2.2

theorem isQuote_of_all {s : List Char} (h : (s.all fun c => !isQuote c) = true) : ∀ c ∈ s, isQuote c = false := by
  simpa using h

theorem Expr.told {e : Expr} (hcode : e.isCode = true) (hquiet : ∀ r ∈ e.requests, ¬package <:+: r.toList) :
    Told package e.text := by
  induction e with
  | name n => exact .none (isQuote_of_isName hcode)
  | required request =>
    exact (told_required hcode (hquiet request (by simp [requests]))).wrap (isQuote_of_all (by decide))
      (isQuote_of_all (by decide))
  | call callee argument ih =>
    rw [isCode, Bool.and_eq_true] at hcode
    have htext : (call callee argument).text = (callee.toList ++ ['(']) ++ (argument.text ++ [')']) := by
      simp [text]
    rw [htext]
    refine (ih hcode.2 hquiet).wrap (fun c hc => ?_) (isQuote_of_all (by decide))
    rcases List.mem_append.mp hc with hc | hc
    · exact isQuote_of_isName hcode.1 c hc
    · exact isQuote_of_all (by decide) c hc
  | arrow body ih =>
    have hwrapped : Told package (arrowText ++ (body.text ++ [])) :=
      (ih hcode hquiet).wrap (isQuote_of_all (by decide)) (by simp)
    simpa [text] using hwrapped
  | hollow => exact .none (isQuote_of_all (by decide))
  | nothing => exact .none (isQuote_of_all (by decide))
  | quoted _ | template _ => cases hcode

/-- The line sets a constant to a string or a template. -/
def Line.isLiteral : Line → Bool
  | bound _ value => value.isLiteral
  | _ => false

theorem Line.told (hplain : l.isPlain = true) (hcode : l.isComment = false) (hliteral : l.isLiteral = false)
    (hquiet : Unrelated package l) : Told package l.text := by
  cases l with
  | imported request =>
    have htext : (imported request).text = importText ++ (Expr.inQuotes request.toList ++ [';']) := rfl
    rw [htext]
    exact (told_required hplain (hquiet request (by simp [requests]))).wrap (isQuote_of_all (by decide))
      (isQuote_of_all (by decide))
  | bound name value =>
    simp only [isPlain, Bool.and_eq_true, Bool.or_eq_true] at hplain
    have hvalue : value.isCode = true := hplain.2.resolve_right (by simpa [isLiteral] using hliteral)
    have htext : (bound name value).text = (constText ++ (name.toList ++ equalsText)) ++ (value.text ++ [';']) := by
      simp [text]
    rw [htext]
    refine (Expr.told hvalue hquiet).wrap (fun c hc => ?_) (isQuote_of_all (by decide))
    simp only [List.mem_append] at hc
    rcases hc with hc | hc | hc
    · exact isQuote_of_all (by decide : (constText.all fun c => !isQuote c) = true) c hc
    · exact isQuote_of_isName hplain.1 c hc
    · exact isQuote_of_all (by decide : (equalsText.all fun c => !isQuote c) = true) c hc
  | run e =>
    have hwrapped : Told package ([] ++ (e.text ++ [';'])) :=
      (Expr.told hplain hquiet).wrap (by simp) (isQuote_of_all (by decide))
    simpa [text] using hwrapped
  | note _ | block _ | shelved _ _ _ => cases hcode

/-! ## 2. What a search cannot reach beyond -/

theorem not_isUnquoted_newline : ¬isUnquoted '\n' = true := by decide

/-- A string ends on its line. -/
theorem quoted?_newline (hpackage : ∀ c ∈ package, isUnquoted c = true) {v : List Char} (h : quoted? package v = none)
    (rest : List Char) : quoted? package (v ++ '\n' :: rest) = none := by
  refine Option.eq_none_iff_forall_ne_some.mpr fun r hquoted => ?_
  obtain ⟨q, inner, d, hv, hq, hd, hinner, hholds⟩ := (quoted?_eq_some_iff hpackage).mp hquoted
  cases v with
  | nil =>
    obtain ⟨rfl, -⟩ := List.cons.inj hv
    cases hq
  | cons c v =>
    obtain ⟨rfl, htail⟩ := List.cons.inj hv
    rcases split_at htail with ⟨m, rfl, hm⟩ | ⟨t, rfl, -⟩
    · cases m with
      | nil =>
        obtain ⟨rfl, -⟩ := List.cons.inj hm
        cases hd
      | cons e m =>
        obtain ⟨rfl, -⟩ := List.cons.inj hm
        exact not_isUnquoted_newline (hinner '\n' (by simp))
    · have hsome : quoted? package (c :: (inner ++ d :: t)) = some t :=
        (quoted?_eq_some_iff hpackage).mpr ⟨c, inner, d, rfl, hq, hd, hinner, hholds⟩
      rw [h] at hsome
      cases hsome

/-- A line break, and the start of a line that nothing before it can go on with. -/
theorem stops_newline {r : List Char} (hhead : ∀ c v, r = c :: v → isBlank c = false ∧ isQuote c = false ∧ c ≠ ')')
    (hsources : ∀ u v, r = u ++ v → (∀ c ∈ u, isImportChar c = true) → quoted? package v = none)
    (hcalls : ∀ u w v, r = u ++ '(' :: (w ++ v) → (∀ c ∈ u, isSettingChar c = true) →
      (∀ c ∈ w, isBlank c = true) → quoted? package v = none) : Stops package ('\n' :: r) where
  sources := by
    intro u v h hu
    cases u with
    | nil =>
      obtain rfl : v = '\n' :: r := h.symm
      exact quoted?_eq_none (by decide) r
    | cons c u => exact hsources u v (List.cons.inj h).2 fun c hc => hu c (List.mem_cons_of_mem _ hc)
  calls := by
    intro u w v h hu hw
    cases u with
    | nil => exact absurd (List.cons.inj h).1 (by decide)
    | cons c u => exact hcalls u w v (List.cons.inj h).2 (fun c hc => hu c (List.mem_cons_of_mem _ hc)) hw
  strings := by
    intro u d v h hu hd
    cases u with
    | nil => rfl
    | cons c u =>
      obtain ⟨rfl, -⟩ := List.cons.inj h
      exact absurd (hu '\n' (List.mem_cons_self ..)) not_isUnquoted_newline
  arguments := by
    intro w v h hw
    match w with
    | [] => exact absurd (List.cons.inj h).1 (by decide)
    | [c] => exact (hhead ')' v (List.cons.inj h).2).2.2 rfl
    | c :: d :: w =>
      obtain ⟨hblank, hquote, -⟩ := hhead d _ (List.cons.inj h).2
      rcases hw d (by simp) with h | h
      · rw [hblank] at h
        cases h
      · rw [hquote] at h
        cases h
  ends := by
    intro c v h
    obtain ⟨rfl, -⟩ := List.cons.inj h
    decide

/-- No quote stands in the first line of the text. -/
def Unclosed (text : List Char) : Prop :=
  ∀ u d v, text = u ++ d :: v → (∀ c ∈ u, isUnquoted c = true) → isQuote d = false

theorem unclosed_of_free (h : ∀ c ∈ text, isQuote c = false) : Unclosed text := by
  rintro u d v rfl -
  exact h d (by simp)

/-- Of a text, only nothing consists of characters that its first one is none of. -/
theorem eq_nil_of_first {p : Char → Bool} {c : Char} {r u v : List Char} (hc : p c = false) (h : c :: r = u ++ v)
    (hu : ∀ e ∈ u, p e = true) : u = [] := by
  cases u with
  | nil => rfl
  | cons e u =>
    obtain ⟨rfl, -⟩ := List.cons.inj h
    rw [hu c (List.mem_cons_self ..)] at hc
    cases hc

/-- The end of a literal. -/
theorem stops_mark (hpackage : ∀ c ∈ package, isUnquoted c = true) {x : Char} (hx : x = '"' ∨ x = '\x60')
    {more : List Char} (hmore : Unclosed (';' :: more)) : Stops package (x :: ';' :: more) := by
  obtain ⟨himport, hsetting, hblank, hopening, hclosing, hends⟩ : isImportChar x = false ∧ isSettingChar x = false ∧
      isBlank x = false ∧ x ≠ '(' ∧ x ≠ ')' ∧ x ≠ ' ' ∧ x ≠ '\t' ∧ x ≠ ';' := by
    rcases hx with rfl | rfl <;> decide
  constructor
  · intro u v h hu
    obtain rfl := eq_nil_of_first himport h hu
    obtain rfl : v = x :: ';' :: more := h.symm
    refine Option.eq_none_iff_forall_ne_some.mpr fun r hquoted => ?_
    obtain ⟨q, inner, d, htext, -, hd, hinner, -⟩ := (quoted?_eq_some_iff hpackage).mp hquoted
    rw [hmore inner d r (List.cons.inj htext).2 hinner] at hd
    cases hd
  · intro u w v h hu hw
    obtain rfl := eq_nil_of_first hsetting h hu
    exact absurd (List.cons.inj h).1 hopening
  · intro u d v h hu hd
    cases u with
    | nil => rfl
    | cons c u =>
      rw [hmore u d v (List.cons.inj h).2 fun c hc => hu c (List.mem_cons_of_mem _ hc)] at hd
      cases hd
  · intro w v h hw
    match w with
    | [] => exact hclosing (List.cons.inj h).1
    | [c] => exact absurd (List.cons.inj (List.cons.inj h).2).1 (by decide)
    | c :: d :: w =>
      obtain ⟨rfl, -⟩ := List.cons.inj (List.cons.inj h).2
      exact absurd (hw ';' (by simp)) (by decide)
  · intro c v h
    obtain ⟨rfl, -⟩ := List.cons.inj h
    exact hends

/-- A line that starts with a slash. -/
theorem stops_slash (r : List Char) : Stops package ('\n' :: '/' :: r) := by
  refine stops_newline ?_ ?_ ?_
  · intro c v h
    obtain ⟨rfl, -⟩ := List.cons.inj h
    decide
  · intro u v h hu
    obtain rfl := eq_nil_of_first (p := isImportChar) (by decide) h hu
    obtain rfl : v = '/' :: r := h.symm
    exact quoted?_eq_none (by decide) r
  · intro u w v h hu hw
    obtain rfl := eq_nil_of_first (p := isSettingChar) (by decide) h hu
    exact absurd (List.cons.inj h).1 (by decide)

/-- What stands before the value of a constant. -/
def bindText (name : String) : List Char := Line.constText ++ (name.toList ++ Line.equalsText)

theorem bindText_eq (name : String) : bindText name = (Line.constText ++ (name.toList ++ [' '])) ++ ['=', ' '] := by
  have hequals : Line.equalsText = [' ', '=', ' '] := rfl
  simp [bindText, hequals]

theorem isSettingChar_of_bindText {name : String} (hname : isName name = true) :
    ∀ c ∈ bindText name, isSettingChar c = true := by
  intro c hc
  simp only [bindText, List.mem_append] at hc
  rcases hc with hc | hc | hc
  · exact List.all_eq_true.mp (by decide : Line.constText.all isSettingChar = true) c hc
  · exact (isSettingChar_of_isNameTail (isNameTail_of_isName hname c hc)).1
  · exact List.all_eq_true.mp (by decide : Line.equalsText.all isSettingChar = true) c hc

theorem isImportChar_of_declared {name : String} (hname : isName name = true) :
    ∀ c ∈ Line.constText ++ (name.toList ++ [' ']), isImportChar c = true := by
  intro c hc
  simp only [List.mem_append] at hc
  rcases hc with hc | hc | hc
  · exact List.all_eq_true.mp (by decide : Line.constText.all isImportChar = true) c hc
  · exact (isSettingChar_of_isNameTail (isNameTail_of_isName hname c hc)).2.1
  · rw [List.mem_singleton.mp hc]
    decide

/-- A line that sets a constant to a literal. -/
theorem stops_literal {name : String} (hname : isName name = true) {x : Char} (hx : x = '"' ∨ x = '\x60')
    (r : List Char) : Stops package ('\n' :: (bindText name ++ x :: r)) := by
  have hsetting : ¬isSettingChar x = true := by
    rcases hx with rfl | rfl <;> decide
  refine stops_newline ?_ ?_ ?_
  · intro c v h
    have hconst : bindText name ++ x :: r = 'c' :: ("onst ".toList ++ (name.toList ++ Line.equalsText) ++ x :: r) := rfl
    obtain ⟨rfl, -⟩ := List.cons.inj (hconst.symm.trans h)
    decide
  · -- an equals sign stands before the literal
    intro u v h hu
    have h : u ++ v = (Line.constText ++ (name.toList ++ [' '])) ++ '=' :: (' ' :: x :: r) := by
      rw [← h, bindText_eq]
      simp
    rcases split_at h with ⟨m, hm, rfl⟩ | ⟨t, rfl, -⟩
    · cases m with
      | nil => exact quoted?_eq_none (by decide) _
      | cons e m =>
        have himport := isImportChar_of_declared hname e (hm ▸ by simp)
        refine quoted?_eq_none (Bool.eq_false_iff.mpr fun hquote => ?_) _
        rw [isImportChar_of_isQuote hquote] at himport
        cases himport
    · exact absurd (hu '=' (by simp)) (by decide)
  · intro u w v h hu hw
    have hopening : ¬isSettingChar '(' = true := by decide
    have hfree {s : List Char} (hs : ∀ c ∈ s, isSettingChar c = true) : ∀ c ∈ s, ¬¬isSettingChar c = true :=
      fun c hc => not_not_intro (hs c hc)
    obtain ⟨z, rfl, hz⟩ := exists_append_of_free (hfree (isSettingChar_of_bindText hname)) hopening h.symm
    cases z with
    | nil =>
      obtain ⟨rfl, -⟩ := List.cons.inj hz
      rcases hx with h | h <;> cases h
    | cons e z =>
      obtain ⟨rfl, -⟩ := List.cons.inj hz
      exact absurd (hu e (by simp)) hsetting

/-- A line of code. -/
theorem stops_code (hpackage : ∀ c ∈ package, isUnquoted c = true) (hplain : l.isPlain = true)
    (hcode : l.isComment = false) (hliteral : l.isLiteral = false) (hunrelated : Unrelated package l)
    (rest : List Char) : Stops package ('\n' :: (l.text ++ '\n' :: rest)) := by
  have hmute : Mute package l.text := (Line.told hplain hcode hliteral hunrelated).mute hpackage
  obtain ⟨z, hz⟩ : ∃ z, l.text = z ++ [';'] := by
    cases l with
    | imported request => exact ⟨Line.importText ++ Expr.inQuotes request.toList, by simp [Line.text]⟩
    | bound name value => exact ⟨bindText name ++ value.text, by simp [Line.text, bindText]⟩
    | run e => exact ⟨e.text, rfl⟩
    | note _ | block _ | shelved _ _ _ => cases hcode
  -- up to the semicolon no string starts that holds the package
  have hbefore {u v : List Char} (h : l.text ++ '\n' :: rest = u ++ v) (hu : ∀ c ∈ u, c ≠ ';') :
      quoted? package v = none := by
    rw [hz, List.append_assoc] at h
    rcases split_at h.symm with ⟨m, rfl, rfl⟩ | ⟨t, rfl, -⟩
    · have hsuffix : m ++ [';'] <:+ l.text := ⟨u, by rw [hz]; simp⟩
      simpa using quoted?_newline hpackage (hmute _ hsuffix) rest
    · exact absurd rfl (hu ';' (by simp))
  have hne {p : Char → Bool} (hp : p ';' = false) {u : List Char} (hu : ∀ c ∈ u, p c = true) : ∀ c ∈ u, c ≠ ';' := by
    rintro c hc rfl
    rw [hu ';' hc] at hp
    cases hp
  refine stops_newline ?_ ?_ ?_
  · intro c v h
    obtain ⟨d, r, htext, hd⟩ := Line.exists_text hplain
    rw [htext] at h
    obtain ⟨rfl, -⟩ := List.cons.inj h
    simp only [isFirst, Bool.and_eq_true, bne_iff_ne, Bool.not_eq_true'] at hd
    exact ⟨hd.1.1.1.2, by simp [isQuote, hd.1.1.2, hd.1.2], hd.2⟩
  · exact fun u v h hu => hbefore h (hne (p := isImportChar) (by decide) hu)
  · intro u w v h hu hw
    refine hbefore (u := u ++ '(' :: w) (by simpa using h) fun c hc => ?_
    rcases List.mem_append.mp hc with hc | hc
    · exact hne (p := isSettingChar) (by decide) hu c hc
    rcases List.mem_cons.mp hc with rfl | hc
    · decide
    · exact hne (p := isBlank) (by decide) hw c hc

/-! ## 3. Where nothing is found -/

variable {t : List Char}

/-- A text without strings that hold the package has no imports of it, -/
theorem importStatement_of_mute (hpackage : ∀ c ∈ package, isUnquoted c = true) (hmute : Mute package text)
    (ht : t <:+ text) (before : Option Char) : importStatement package before t = none := by
  refine Option.eq_none_iff_forall_ne_some.mpr fun (lead, n) hfound => ?_
  obtain ⟨-, -, statement, rest, rfl, himport, -⟩ := (importStatement_eq_some_iff hpackage).mp hfound
  obtain ⟨v, hv, hquoted⟩ := himport.exists_quoted hpackage rest
  rw [hmute v (hv.trans ht)] at hquoted
  cases hquoted

/-- and no variables are set by it. -/
theorem requireDeclaration_of_mute (hpackage : ∀ c ∈ package, isUnquoted c = true) (hmute : Mute package text)
    (ht : t <:+ text) (before : Option Char) : requireDeclaration package before t = none := by
  refine Option.eq_none_iff_forall_ne_some.mpr fun (lead, n) hfound => ?_
  obtain ⟨call, rest, rfl, hsetting, -⟩ := requireDeclaration_eq_some hpackage hfound
  obtain ⟨v, r, hv, hquoted⟩ := hsetting.exists_quoted hpackage rest
  rw [hmute v (hv.trans ht)] at hquoted
  cases hquoted

/-- A text without parentheses sets no variables. -/
theorem requireDeclaration_of_free (hpackage : ∀ c ∈ package, isUnquoted c = true) (hfree : '(' ∉ text)
    (ht : t <:+ text) (before : Option Char) : requireDeclaration package before t = none := by
  refine Option.eq_none_iff_forall_ne_some.mpr fun (lead, n) hfound => ?_
  obtain ⟨call, rest, rfl, hsetting, -⟩ := requireDeclaration_eq_some hpackage hfound
  exact hfree (ht.subset (List.mem_append_left _ hsetting.mem_opening))

end

/-! ## 4. Lines with a text of their own -/

section

variable {package text : List Char} {l : Line}

theorem isOrdinary_of_isNameTail {c : Char} (h : isNameTail c = true) : isOrdinary c = true := by
  have hall := forall_ascii (p := fun c => !isNameTail c || isOrdinary c) (by decide +kernel) (lt_of_isNameTail h)
  simpa [h] using hall

theorem Expr.isOrdinary {e : Expr} (h : (e.isCode || e.isLiteral) = true) : ∀ c ∈ e.text, Plain.isOrdinary c = true := by
  have hall {s : List Char} (hs : (s.all Plain.isOrdinary) = true) : ∀ c ∈ s, Plain.isOrdinary c = true := by
    simpa using hs
  have hname {w : String} (hw : isName w = true) : ∀ c ∈ w.toList, Plain.isOrdinary c = true :=
    fun c hc => isOrdinary_of_isNameTail (isNameTail_of_isName hw c hc)
  induction e with
  | name n => exact hname (by simpa [isCode, isLiteral] using h)
  | required request =>
    have hrequest : isRequest request = true := by simpa [isCode, isLiteral] using h
    intro c hc
    simp only [text, inQuotes, List.mem_append, List.mem_cons, List.not_mem_nil, or_false] at hc
    rcases hc with hc | (rfl | hc | rfl) | rfl
    · exact hall (s := requireText) (by decide) c hc
    · decide
    · exact (isOrdinary_of_isRequestChar (List.all_eq_true.mp hrequest c hc)).1
    all_goals decide
  | call callee argument ih =>
    have hboth : isName callee = true ∧ argument.isCode = true := by simpa [isCode, isLiteral] using h
    intro c hc
    simp only [text, List.mem_append, List.mem_cons, List.not_mem_nil, or_false] at hc
    rcases hc with hc | rfl | hc | rfl
    · exact hname hboth.1 c hc
    · decide
    · exact ih (by simp [hboth.2]) c hc
    · decide
  | arrow body ih =>
    have hbody : body.isCode = true := by simpa [isCode, isLiteral] using h
    intro c hc
    rcases List.mem_append.mp hc with hc | hc
    · exact hall (s := arrowText) (by decide) c hc
    · exact ih (by simp [hbody]) c hc
  | hollow => exact hall (by decide)
  | nothing => exact hall (by decide)
  | quoted t =>
    have hchars : ∀ c ∈ t.toList, Plain.isOrdinary c = true ∧ c ≠ '"' := by simpa [isCode, isLiteral] using h
    intro c hc
    simp only [text, inQuotes, List.mem_append, List.mem_cons, List.not_mem_nil, or_false] at hc
    rcases hc with rfl | hc | rfl
    · decide
    · exact (hchars c hc).1
    · decide
  | template t =>
    have hchars : ∀ c ∈ t.toList, (Plain.isOrdinary c = true ∧ c ≠ '\x60') ∧ c ≠ '$' := by
      simpa [isCode, isLiteral] using h
    intro c hc
    simp only [text, List.mem_append, List.mem_cons, List.not_mem_nil, or_false] at hc
    rcases hc with rfl | hc | rfl
    · decide
    · exact (hchars c hc).1.1
    · decide

/-- A plain line consists of ordinary characters. -/
theorem Line.isOrdinary (hplain : l.isPlain = true) : ∀ c ∈ l.text, Plain.isOrdinary c = true := by
  cases hcomment : l.isComment with
  | true => exact isOrdinary_of_isComment hcomment hplain
  | false =>
    have hall {s : List Char} (hs : (s.all Plain.isOrdinary) = true) : ∀ c ∈ s, Plain.isOrdinary c = true := by
      simpa using hs
    intro c hc
    cases l with
    | imported request =>
      simp only [text, Expr.inQuotes, List.mem_append, List.mem_cons, List.not_mem_nil, or_false] at hc
      rcases hc with hc | (rfl | hc | rfl) | rfl
      · exact hall (s := importText) (by decide) c hc
      · decide
      · exact (isOrdinary_of_isRequestChar (List.all_eq_true.mp hplain c hc)).1
      all_goals decide
    | bound name value =>
      rw [isPlain, Bool.and_eq_true] at hplain
      simp only [text, List.mem_append, List.mem_singleton] at hc
      rcases hc with hc | hc | hc | hc | rfl
      · exact hall (s := constText) (by decide) c hc
      · exact isOrdinary_of_isNameTail (isNameTail_of_isName hplain.1 c hc)
      · exact hall (s := equalsText) (by decide) c hc
      · exact Expr.isOrdinary hplain.2 c hc
      · decide
    | run e =>
      simp only [text, List.mem_append, List.mem_singleton] at hc
      rcases hc with hc | rfl
      · exact Expr.isOrdinary (by simpa [isPlain] using Or.inl hplain) c hc
      · decide
    | note _ | block _ | shelved _ _ _ => cases hcomment

/-- A kind of line with a text of its own: a line comment, or a constant and its literal. -/
inductive Frame where
  | note
  | quoted (name : String)
  | template (name : String)

namespace Frame

/-- The line with the text in it. -/
def line : Frame → String → Line
  | note, t => .note t
  | quoted name, t => .bound name (.quoted t)
  | template name, t => .bound name (.template t)

/-- What stands before the text. -/
def front : Frame → List Char
  | note => ['/', '/']
  | quoted name => bindText name ++ ['"']
  | template name => bindText name ++ ['\x60']

/-- What stands behind the text. -/
def back : Frame → List Char
  | note => []
  | quoted _ => ['"', ';']
  | template _ => ['\x60', ';']

variable {f : Frame} {T' rest : List Char} {s : String}

theorem text_line (f : Frame) (s : String) : (f.line s).text = f.front ++ (s.toList ++ f.back) := by
  cases f <;> simp [line, front, back, Line.text, Expr.text, Expr.inQuotes, bindText]

theorem isHollow_line (f : Frame) (s : String) : (f.line s).isHollow = false := by
  cases f <;> rfl

theorem unrelated_line (f : Frame) (s : String) : Unrelated package (f.line s) := by
  cases f <;> simp [Unrelated, line, Line.requests, Expr.requests]

/-- Comments in the text leave the line plain. -/
theorem isPlain_line (hplain : (f.line s).isPlain = true) (h : Reworked s.toList T') :
    (f.line (String.ofList T')).isPlain = true := by
  have hnew : ∀ c ∈ removedOpener ++ removedCloser,
      isOrdinary c = true ∧ c ≠ '"' ∧ c ≠ '\x60' ∧ c ≠ '$' := by
    intro c hc
    have hall : (removedOpener ++ removedCloser).all
        (fun c => isOrdinary c && (c != '"' && (c != '\x60' && c != '$'))) = true := by decide
    simpa using List.all_eq_true.mp hall c hc
  have hmem {c : Char} (hc : c ∈ T') : c ∈ s.toList ∨ c ∈ removedOpener ++ removedCloser :=
    (h.mem hc).imp_right List.mem_append.mpr
  cases f with
  | note =>
    have hboth : (∀ c ∈ s.toList, isOrdinary c = true) ∧ Line.isUnannotated s.toList = true := by
      simpa [line, Line.isPlain] using hplain
    have hchars : ∀ c ∈ T', isOrdinary c = true := fun c hc => (hmem hc).elim (hboth.1 c) fun hc => (hnew c hc).1
    have hcontent : Line.isUnannotated T' = true := by
      rcases h.eq_or with rfl | ⟨a, b, more, hs, rfl⟩
      · exact hboth.2
      · exact isUnannotated_append (hs ▸ hboth.2) (by decide) _
    simpa [line, Line.isPlain, hcontent] using hchars
  | quoted name =>
    have hboth : isName name = true ∧ ∀ c ∈ s.toList, isOrdinary c = true ∧ c ≠ '"' := by
      simpa [line, Line.isPlain, Expr.isCode, Expr.isLiteral] using hplain
    have hchars : ∀ c ∈ T', isOrdinary c = true ∧ c ≠ '"' := fun c hc =>
      (hmem hc).elim (hboth.2 c) fun hc => ⟨(hnew c hc).1, (hnew c hc).2.1⟩
    simpa [line, Line.isPlain, Expr.isCode, Expr.isLiteral, hboth.1] using hchars
  | template name =>
    have hboth : isName name = true ∧ ∀ c ∈ s.toList, (isOrdinary c = true ∧ c ≠ '\x60') ∧ c ≠ '$' := by
      simpa [line, Line.isPlain, Expr.isCode, Expr.isLiteral] using hplain
    have hchars : ∀ c ∈ T', (isOrdinary c = true ∧ c ≠ '\x60') ∧ c ≠ '$' := fun c hc =>
      (hmem hc).elim (hboth.2 c) fun hc => ⟨⟨(hnew c hc).1, (hnew c hc).2.2.1⟩, (hnew c hc).2.2.2⟩
    simpa [line, Line.isPlain, Expr.isCode, Expr.isLiteral, hboth.1] using hchars

/-- The mark before a literal, and the characters before it. -/
theorem front_eq_or (hplain : (f.line s).isPlain = true) :
    f = note ∨ ∃ name x, isName name = true ∧ (x = '"' ∨ x = '\x60') ∧ f.front = bindText name ++ [x] ∧
      f.back = [x, ';'] := by
  cases f with
  | note => exact .inl rfl
  | quoted name => exact .inr ⟨name, '"', (Bool.and_eq_true_iff.mp hplain).1, .inl rfl, rfl, rfl⟩
  | template name => exact .inr ⟨name, '\x60', (Bool.and_eq_true_iff.mp hplain).1, .inr rfl, rfl, rfl⟩

/-- Nothing is found before the text. -/
theorem nothing_before (hpackage : ∀ c ∈ package, isUnquoted c = true) (hplain : (f.line s).isPlain = true)
    {t : List Char} (ht : t <:+ f.front) (hne : t ≠ []) (before : Option Char) (r : List Char) :
    importStatement package before (t ++ r) = none ∧ requireDeclaration package before (t ++ r) = none := by
  rcases front_eq_or hplain with rfl | ⟨name, x, hname, hx, hfront, -⟩
  · cases t with
    | nil => exact absurd rfl hne
    | cons c t =>
      have hc : c = '/' := by simpa [front] using ht.subset (List.mem_cons_self ..)
      subst hc
      exact ⟨importStatement_eq_none (by decide) .., requireDeclaration_eq_none (by decide) ..⟩
  · have hclasses : x ≠ 'i' ∧ isSettingChar x = false ∧ x ≠ '(' := by
      rcases hx with rfl | rfl <;> decide
    rw [hfront] at ht
    obtain ⟨z, hz, rfl⟩ : ∃ z, z <:+ bindText name ∧ t = z ++ [x] := by
      rcases List.suffix_concat_iff.mp ht with rfl | ⟨z, rfl, hz⟩
      · exact absurd rfl hne
      · exact ⟨z, hz, by simp⟩
    rw [List.append_assoc, List.singleton_append]
    refine ⟨?_, requireDeclaration_eq_none_of_setting hpackage
      (fun c hc => isSettingChar_of_bindText hname c (hz.subset hc)) hclasses.2.1 hclasses.2.2⟩
    -- an import would have to start before the equals sign, which is none of its names
    rw [bindText_eq] at hz
    obtain ⟨p, hp⟩ := hz
    rcases split_at hp with ⟨m, hm, rfl⟩ | ⟨m, rfl, hm⟩
    · have hnames : ∀ c ∈ m, isImportChar c = true :=
        fun c hc => isImportChar_of_declared hname c (hm ▸ List.mem_append_right p hc)
      simpa using importStatement_eq_none_of_names hpackage hnames (by decide : isImportChar '=' = false) (by decide)
    · cases z with
      | nil => exact importStatement_eq_none hclasses.1 ..
      | cons c z =>
        have hmem : c ∈ [' '] := by
          rw [← hm]
          simp
        obtain rfl := List.mem_singleton.mp hmem
        exact importStatement_eq_none (by decide) ..

/-- Nothing is found behind the text. -/
theorem nothing_behind (hplain : (f.line s).isPlain = true) {t : List Char} (ht : t <:+ f.back) (hne : t ≠ [])
    (before : Option Char) (r : List Char) :
    importStatement package before (t ++ r) = none ∧ requireDeclaration package before (t ++ r) = none := by
  cases t with
  | nil => exact absurd rfl hne
  | cons c t =>
    have hmem : c ∈ f.back := ht.subset (List.mem_cons_self ..)
    have hc : c ≠ 'i' ∧ c ≠ 'c' ∧ c ≠ 'l' ∧ c ≠ 'v' := by
      rcases front_eq_or hplain with rfl | ⟨name, x, -, hx, -, hback⟩
      · cases hmem
      · rw [hback, List.mem_cons, List.mem_singleton] at hmem
        rcases hmem with rfl | rfl
        · rcases hx with rfl | rfl <;> decide
        · decide
    exact ⟨importStatement_eq_none hc.1 .., requireDeclaration_eq_none hc.2 ..⟩

/-- A search that finds nothing around the text, and nothing that goes on behind it. -/
theorem commentedFrom_line {find : Finder Nat} (hfind : find.Advances)
    (hfront : ∀ before t r, t <:+ f.front → t ≠ [] → find before (t ++ r) = none)
    (hinner : ∀ before t a n, t <:+ s.toList → t ≠ [] → find before (t ++ (f.back ++ rest)) = some (a, n) →
      n ≤ t.length)
    (hback : ∀ before t r, t <:+ f.back → t ≠ [] → find before (t ++ r) = none) (before : Option Char) :
    ∃ T' before', Reworked s.toList T' ∧ commentedFrom find before ((f.line s).text ++ rest) =
      (f.line (String.ofList T')).text ++ commentedFrom find before' rest := by
  obtain ⟨T', before', hreworked, hsearch⟩ :=
    commentedFrom_append hfind hinner (f.front.getLast?.or before)
  refine ⟨T', f.back.getLast?.or before', hreworked, ?_⟩
  rw [text_line, text_line, List.append_assoc, List.append_assoc,
    commentedFrom_of_nothing fun before t ht hne => hfront before t _ ht hne, hsearch,
    commentedFrom_of_nothing fun before t ht hne => hback before t _ ht hne]
  simp

theorem stops_back (hpackage : ∀ c ∈ package, isUnquoted c = true) (hplain : (f.line s).isPlain = true)
    (hrest : f = note → Stops package rest) (hunclosed : Unclosed rest) : Stops package (f.back ++ rest) := by
  rcases front_eq_or hplain with rfl | ⟨name, x, -, hx, -, hback⟩
  · exact hrest rfl
  · rw [hback]
    refine stops_mark hpackage hx ?_
    intro u d v h hu
    cases u with
    | nil =>
      obtain ⟨rfl, -⟩ := List.cons.inj h
      rfl
    | cons c u => exact hunclosed u d v (List.cons.inj h).2 fun c hc => hu c (List.mem_cons_of_mem _ hc)

end Frame

end

end PackageRefs.Plain
