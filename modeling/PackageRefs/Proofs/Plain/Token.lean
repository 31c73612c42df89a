/-
# The tokens of a plain line

On a plain line the tokens stand one behind the other, with at most a space between them.

* `Next` says which token a text starts with, and `Lexes` which tokens, in any dialect and wherever the text
  stands.
* `Ready` is what holds of the reader within a line: nothing is wrong so far, no comment waits for its place,
  and none says anything about the call or function that comes next.
* `Sees` is what the grammar needs to know: the tokens in hand and ahead, all on one line.
-/
import PackageRefs.Proofs.Bundle.Literal
import PackageRefs.Proofs.Plain.Syntax
import PackageRefs.Proofs.Script.Reading

namespace PackageRefs.Plain

open PackageRefs.Script PackageRefs.Text

/-! ## 1. Characters -/

section

variable {c : Char}

/-- What can be checked for each character of ASCII holds of all of them. -/
theorem forall_ascii {p : Char → Bool} (h : ∀ n : Fin 128, p (Char.ofNat n) = true)
    (hc : c.toNat < 128) : p c = true := by
  have := h ⟨c.toNat, hc⟩
  rwa [Char.ofNat_toNat] at this

theorem lt_of_isAsciiLetter (h : isAsciiLetter c = true) : c.toNat < 128 := by
  simp only [isAsciiLetter, Bool.or_eq_true, Bool.and_eq_true, decide_eq_true_eq, Char.le_def] at h
  rcases h with ⟨-, h⟩ | ⟨-, h⟩ <;> exact Nat.lt_of_le_of_lt h (by decide)

theorem lt_of_isAsciiAlphanumeric (h : isAsciiAlphanumeric c = true) : c.toNat < 128 := by
  rw [isAsciiAlphanumeric, Bool.or_eq_true] at h
  rcases h with h | h
  · exact lt_of_isAsciiLetter h
  · simp only [isAsciiDigit, Bool.and_eq_true, decide_eq_true_eq, Char.le_def] at h
    exact Nat.lt_of_le_of_lt h.2 (by decide)

theorem lt_of_isNameHead (h : isNameHead c = true) : c.toNat < 128 := by
  rw [isNameHead, Bool.or_eq_true, beq_iff_eq] at h
  rcases h with h | rfl
  · exact lt_of_isAsciiLetter h
  · decide

theorem lt_of_isNameTail (h : isNameTail c = true) : c.toNat < 128 := by
  rw [isNameTail, Bool.or_eq_true, beq_iff_eq] at h
  rcases h with h | rfl
  · exact lt_of_isAsciiAlphanumeric h
  · decide

theorem lt_of_isRequestChar (h : isRequestChar c = true) : c.toNat < 128 := by
  simp only [isRequestChar, Bool.or_eq_true, beq_iff_eq] at h
  rcases h with ((((h | rfl) | rfl) | rfl) | rfl) | rfl
  · exact lt_of_isAsciiAlphanumeric h
  all_goals decide

theorem lt_of_isOrdinary (h : isOrdinary c = true) : c.toNat < 128 := by
  simp only [isOrdinary, Bool.and_eq_true, decide_eq_true_eq, Char.le_def] at h
  exact Nat.lt_of_le_of_lt h.1.1.2 (by decide)

/-- The character is read as the start of a name, and nothing else starts with it. -/
theorem of_isNameHead (h : isNameHead c = true) :
    isNameStart c = true ∧ isSolid c = true ∧ c ≠ '\\' := by
  have hall := forall_ascii (p := fun c => !isNameHead c || (isNameStart c && isSolid c && c != '\\'))
    (by decide +kernel) (lt_of_isNameHead h)
  simpa [h, and_assoc] using hall

theorem of_isNameTail (h : isNameTail c = true) : isNamePart c = true ∧ c ≠ '\\' := by
  have hall := forall_ascii (p := fun c => !isNameTail c || (isNamePart c && c != '\\'))
    (by decide +kernel) (lt_of_isNameTail h)
  simpa [h] using hall

end

/-! ## 2. The first token of a text -/

/-- The text starts with the token, in any dialect and wherever it stands, and `rest` comes behind. -/
def Next (text : List Char) (lexeme : Lexeme) (rest : List Char) : Prop :=
  rest.length < text.length ∧ ∀ isModule pos log fresh, ∃ trimmed start stop, pos ≤ start ∧ start < stop ∧
    Lexer.skipTrivia isModule .code text pos log fresh =
      { rest := trimmed, pos := start, log, onNewLine := fresh } ∧
    Parser.isStray trimmed = false ∧ Parser.lexToken trimmed start = ⟨lexeme, rest, stop, []⟩

section

variable {text rest : List Char} {lexeme : Lexeme}

theorem next_of_lexToken {c : Char} (hc : isSolid c = true) (hlength : rest.length ≤ text.length)
    (hstray : Parser.isStray (c :: text) = false)
    (hlex : ∀ pos, ∃ stop, pos < stop ∧ Parser.lexToken (c :: text) pos = ⟨lexeme, rest, stop, []⟩) :
    Next (c :: text) lexeme rest := by
  refine ⟨Nat.lt_succ_of_le hlength, fun isModule pos log fresh => ?_⟩
  obtain ⟨stop, hlt, hstop⟩ := hlex pos
  exact ⟨_, pos, stop, Nat.le_refl pos, hlt, skipTrivia_of_solid hc isModule text pos log fresh,
    hstray, hstop⟩

theorem next_space (h : Next text lexeme rest) : Next (' ' :: text) lexeme rest := by
  refine ⟨Nat.lt_succ_of_lt h.1, fun isModule pos log fresh => ?_⟩
  have hskip : Lexer.skipTrivia isModule .code (' ' :: text) pos log fresh =
      Lexer.skipTrivia isModule .code text (pos + 1) log fresh := by
    simp [Lexer.skipTrivia, Lexer.isLineBreak, Lexer.isInlineSpace, isBlank]
  obtain ⟨trimmed, start, stop, hle, hlt, htrimmed, hlex⟩ := h.2 isModule (pos + 1) log fresh
  exact ⟨trimmed, start, stop, Nat.le_of_succ_le hle, hlt, hskip.trans htrimmed, hlex⟩

/-! ### Words -/

/-- A word that stands before the text ends there. -/
def EndsWord (text : List Char) : Prop := ∀ c ∈ text.head?, isNamePart c = false ∧ c ≠ '\\'

theorem readNameBody_cons {c : Char} (hslash : c ≠ '\\') (fuel : Nat) (first : Bool) (text seen : List Char) :
    Lexer.readNameBody (fuel + 1) first (c :: text) seen false [] =
      if (if first then isNameStart c else isNamePart c) then
        Lexer.readNameBody fuel false text (c :: seen) false []
      else (seen, c :: text, false, []) := by
  rw [Lexer.readNameBody]
  -- no escape starts here
  exact fun h => hslash h

theorem readNameBody_of_endsWord (hrest : EndsWord rest) (fuel : Nat) (seen : List Char) :
    Lexer.readNameBody fuel false rest seen false [] = (seen, rest, false, []) := by
  cases fuel with
  | zero => rfl
  | succ fuel =>
    match rest, hrest with
    | [], _ => rfl
    | c :: r, hrest =>
      obtain ⟨hpart, hslash⟩ := hrest c rfl
      simp [readNameBody_cons hslash, hpart]

theorem readNameBody_append {tail : List Char} (htail : tail.all isNameTail = true)
    (hrest : EndsWord rest) (fuel : Nat) (seen : List Char) :
    Lexer.readNameBody (tail.length + fuel) false (tail ++ rest) seen false [] =
      (tail.reverse ++ seen, rest, false, []) := by
  induction tail generalizing seen with
  | nil => simpa using readNameBody_of_endsWord hrest fuel seen
  | cons c tail ih =>
    rw [List.all_cons, Bool.and_eq_true] at htail
    obtain ⟨hpart, hslash⟩ := of_isNameTail htail.1
    have hlength : (c :: tail).length + fuel = tail.length + fuel + 1 := by
      rw [List.length_cons]
      omega
    rw [hlength, List.cons_append, readNameBody_cons hslash]
    simp [hpart, ih htail.2]

theorem next_word {w : String} (hw : isWord w = true) (hrest : EndsWord rest) :
    Next (w.toList ++ rest) (.word w false) rest := by
  have hback : String.ofList w.toList = w := String.ofList_toList
  unfold isWord at hw
  split at hw
  · rename_i c tail hlist
    rw [Bool.and_eq_true] at hw
    obtain ⟨hstart, hsolid, hslash⟩ := of_isNameHead hw.1
    rw [hlist] at hback ⊢
    refine next_of_lexToken hsolid (by simp) (by simp [Parser.isStray, hstart]) fun pos => ?_
    have hread : Lexer.readNameBody ((c :: (tail ++ rest)).length + 1) true (c :: (tail ++ rest)) [] false
        [] = (tail.reverse ++ [c], rest, false, []) := by
      rw [readNameBody_cons hslash]
      have hlength : (c :: (tail ++ rest)).length = tail.length + (rest.length + 1) := by
        simp [Nat.add_assoc]
      simp only [if_true, hstart, hlength]
      exact readNameBody_append hw.2 hrest _ _
    refine ⟨pos + (tail.length + 1), by omega, ?_⟩
    have hname : Lexer.readName (c :: (tail ++ rest)) pos =
        ⟨w, false, rest, pos + (tail.length + 1), []⟩ := by
      simp only [Lexer.readName, hread, Lexer.NameRead.mk.injEq, true_and, and_true]
      refine ⟨by simpa using hback, ?_⟩
      simp only [List.length_cons, List.length_append]
      omega
    simp [Parser.lexToken, hstart, hname]
  · cases hw

/-! ### Marks -/

/-- A character that starts neither a name nor a literal. -/
def isMarkHead (c : Char) : Bool :=
  isSolid c && !(isNameStart c || c == '\\' || isAsciiDigit c || c == '"' || c == '\'' || c == '\x60' ||
    c == '#' || c == '.')

theorem next_mark {c : Char} {mark : String} (hc : isMarkHead c = true)
    (hmark : Lexer.readMark (c :: text) = some mark) (hlength : 0 < mark.length)
    (hrest : (c :: text).drop mark.length = rest) : Next (c :: text) (.mark mark) rest := by
  simp only [isMarkHead, Bool.and_eq_true, Bool.not_eq_true', Bool.or_eq_false_iff] at hc
  obtain ⟨hsolid, ⟨⟨⟨⟨⟨⟨hstart, hslash⟩, hdigit⟩, hdouble⟩, hsingle⟩, hback⟩, hash⟩, hdot⟩ := hc
  have hle : rest.length ≤ text.length := by
    rw [← hrest, List.length_drop, List.length_cons]
    omega
  refine next_of_lexToken hsolid hle ?_ fun pos => ⟨pos + mark.length, by omega, ?_⟩
  · simp [Parser.isStray, hmark]
  · simp [Parser.lexToken, hstart, hslash, hdigit, hdouble, hsingle, hback, hash, hdot, hmark, hrest]

theorem next_opening (text : List Char) : Next ('(' :: text) (.mark "(") text :=
  next_mark (by decide) (by simp [Lexer.readMark, Lexer.marks, List.isPrefixOf]) (by decide) rfl

theorem next_closing (text : List Char) : Next (')' :: text) (.mark ")") text :=
  next_mark (by decide) (by simp [Lexer.readMark, Lexer.marks, List.isPrefixOf]) (by decide) rfl

theorem next_semicolon (text : List Char) : Next (';' :: text) (.mark ";") text :=
  next_mark (by decide) (by simp [Lexer.readMark, Lexer.marks, List.isPrefixOf]) (by decide) rfl

theorem next_arrow (text : List Char) : Next ('=' :: '>' :: text) (.mark "=>") text :=
  next_mark (by decide) (by simp [Lexer.readMark, Lexer.marks, List.isPrefixOf]) (by decide) rfl

theorem next_equals (text : List Char) : Next ('=' :: ' ' :: text) (.mark "=") (' ' :: text) :=
  next_mark (by decide) (by simp [Lexer.readMark, Lexer.marks, List.isPrefixOf]) (by decide) rfl

/-- The end of a comment, where there is none, is read as a multiplication and something else. -/
theorem next_times (text : List Char) : Next ('*' :: '/' :: text) (.mark "*") ('/' :: text) :=
  next_mark (by decide) (by simp [Lexer.readMark, Lexer.marks, List.isPrefixOf]) (by decide) rfl

/-! ### Literals -/

/-- A character that stands for itself in a string in double quotes. -/
def isStringChar (c : Char) : Bool := c != '"' && c != '\\' && c != '\n' && c != '\r'

theorem readStringBody_append {t : List Char} (ht : t.all isStringChar = true) (fuel : Nat)
    (tail : List Char) (seen : List Nat) :
    Lexer.readStringBody '"' (t.length + fuel) (t ++ tail) seen [] =
      Lexer.readStringBody '"' fuel tail ((t.map Char.toNat).reverse ++ seen) [] := by
  induction t generalizing seen with
  | nil => simp
  | cons c t ih =>
    simp only [List.all_cons, isStringChar, Bool.and_eq_true, bne_iff_ne] at ht
    obtain ⟨⟨⟨⟨hquote, hslash⟩, hfeed⟩, hreturn⟩, ht⟩ := ht
    have hlength : (c :: t).length + fuel = t.length + fuel + 1 := by
      rw [List.length_cons]
      omega
    rw [hlength, List.cons_append]
    simp [Lexer.readStringBody, hquote, hslash, hfeed, hreturn, ih ht]

theorem next_quoted {t : List Char} (ht : t.all isStringChar = true) (rest : List Char) :
    Next (Expr.inQuotes t ++ rest) (.string (String.ofList t) false (String.ofList t)) rest := by
  have htext : Expr.inQuotes t ++ rest = '"' :: (t ++ '"' :: rest) := by simp [Expr.inQuotes]
  rw [htext]
  have hle : rest.length ≤ (t ++ '"' :: rest).length := by
    rw [List.length_append, List.length_cons]
    omega
  refine next_of_lexToken (by decide) hle (by simp [Parser.isStray]) fun pos => ?_
  have hlength : (t ++ '"' :: rest).length + 1 = t.length + (rest.length + 2) := by
    simp only [List.length_append, List.length_cons]
    omega
  have hbody : Lexer.readStringBody '"' ((t ++ '"' :: rest).length + 1) (t ++ '"' :: rest) [] [] =
      some (t.map Char.toNat, rest, []) := by
    rw [hlength, readStringBody_append ht]
    simp [Lexer.readStringBody]
  have hused : (t ++ '"' :: rest).length - rest.length = t.length + 1 := by
    rw [List.length_append, List.length_cons]
    omega
  have hstart : isNameStart '"' = false := by decide
  have hdigit : isAsciiDigit '"' = false := by decide
  have hread : Lexer.readString '"' (t ++ '"' :: rest) (pos + 1) =
      ⟨.string (String.ofList t) false (String.ofList t), rest, pos + 1 + (t.length + 1), []⟩ := by
    unfold Lexer.readString
    rw [hbody]
    simp only [Bundle.textOfPoints_toNat, hused, Nat.add_sub_cancel, List.take_left]
  exact ⟨pos + 1 + (t.length + 1), by omega, by simp [Parser.lexToken, hstart, hdigit, hread]⟩

/-- A character that stands for itself in a template. -/
def isTemplateChar (c : Char) : Bool := c != '\x60' && c != '$' && c != '\\' && c != '\r'

theorem readQuasiBody_append {t : List Char} (ht : t.all isTemplateChar = true) (fuel : Nat)
    (tail raw : List Char) (cooked : List Nat) :
    Lexer.readQuasiBody (t.length + fuel) (t ++ tail) raw (some cooked) =
      Lexer.readQuasiBody fuel tail (t.reverse ++ raw) (some ((t.map Char.toNat).reverse ++ cooked)) := by
  induction t generalizing raw cooked with
  | nil => simp
  | cons c t ih =>
    simp only [List.all_cons, isTemplateChar, Bool.and_eq_true, bne_iff_ne] at ht
    obtain ⟨⟨⟨⟨hback, hdollar⟩, hslash⟩, hreturn⟩, ht⟩ := ht
    have hlength : (c :: t).length + fuel = t.length + fuel + 1 := by
      rw [List.length_cons]
      omega
    rw [hlength, List.cons_append, Lexer.readQuasiBody]
    · simp [ih ht]
    · exact fun h => hback h
    · exact fun _ h => absurd h hdollar
    · exact fun _ h => absurd h hreturn
    · exact fun h => hreturn h
    · exact fun h => hslash h

theorem next_template {t : List Char} (ht : t.all isTemplateChar = true) (rest : List Char) :
    Next ('\x60' :: (t ++ '\x60' :: rest))
      (.quasi (String.ofList t) (some (String.ofList t)) true) rest := by
  have hle : rest.length ≤ (t ++ '\x60' :: rest).length := by
    rw [List.length_append, List.length_cons]
    omega
  refine next_of_lexToken (by decide) hle (by simp [Parser.isStray]) fun pos => ?_
  have hlength : (t ++ '\x60' :: rest).length + 1 = t.length + (rest.length + 2) := by
    simp only [List.length_append, List.length_cons]
    omega
  have hbody : Lexer.readQuasiBody ((t ++ '\x60' :: rest).length + 1) (t ++ '\x60' :: rest) [] (some []) =
      some (t.reverse, some (t.map Char.toNat).reverse, rest, true) := by
    rw [hlength, readQuasiBody_append ht]
    simp [Lexer.readQuasiBody]
  have hused : (t ++ '\x60' :: rest).length - rest.length = t.length + 1 := by
    rw [List.length_append, List.length_cons]
    omega
  have hstart : isNameStart '\x60' = false := by decide
  have hdigit : isAsciiDigit '\x60' = false := by decide
  have hread : Lexer.readQuasi (t ++ '\x60' :: rest) (pos + 1) =
      ⟨.quasi (String.ofList t) (some (String.ofList t)) true, rest, pos + 1 + (t.length + 1), []⟩ := by
    unfold Lexer.readQuasi
    rw [hbody]
    simp only [hused, Option.map_some, List.reverse_reverse, Bundle.textOfPoints_toNat]
  exact ⟨pos + 1 + (t.length + 1), by omega, by simp [Parser.lexToken, hstart, hdigit, hread]⟩

/-- The number in `void 0`. -/
theorem next_zero {c : Char} (hc : c = ')' ∨ c = ';') (rest : List Char) :
    Next ('0' :: c :: rest) (.number .zero) (c :: rest) := by
  refine next_of_lexToken (by decide) (Nat.le_refl _) (by simp [Parser.isStray, isAsciiDigit]) fun pos => ?_
  have hread : Lexer.readNumeral ('0' :: c :: rest) pos = ⟨.number .zero, c :: rest, pos + 1, []⟩ := by
    have hvalue : Number.Binary64.ofDecimal (Lexer.digitsValue 10 ([0] ++ [])) 0 = .zero := by decide
    have hstart : isNameStart ')' = false ∧ isNameStart ';' = false := by decide
    rcases hc with rfl | rfl <;>
      simp [Lexer.readNumeral, Lexer.finishDecimal, Lexer.closeNumeral, isAsciiDigit, hstart] <;>
      exact hvalue
  have hstart : isNameStart '0' = false := by decide
  have hdigit : isAsciiDigit '0' = true := by decide
  exact ⟨pos + 1, by omega, by simp [Parser.lexToken, hstart, hdigit, hread]⟩

end

/-! ## 3. The tokens of a line -/

/-- The text starts with the tokens, and `rest` comes behind. -/
inductive Lexes : List Char → List Lexeme → List Char → Prop
  | nil (rest : List Char) : Lexes rest [] rest
  | cons {text mid rest : List Char} {lexeme : Lexeme} {lexemes : List Lexeme}
      (first : Next text lexeme mid) (others : Lexes mid lexemes rest) : Lexes text (lexeme :: lexemes) rest

theorem Lexes.space {text rest : List Char} {lexemes : List Lexeme} (h : Lexes text lexemes rest)
    (hne : lexemes ≠ []) : Lexes (' ' :: text) lexemes rest := by
  cases h with
  | nil => exact absurd rfl hne
  | cons first others => exact .cons (next_space first) others

theorem Lexes.append {text mid rest : List Char} {front back : List Lexeme}
    (hfront : Lexes text front mid) (hback : Lexes mid back rest) : Lexes text (front ++ back) rest := by
  induction hfront with
  | nil => exact hback
  | cons first _ ih => exact .cons first (ih hback)

/-- Within a line nothing is wrong so far, and no comment has a say. -/
structure Ready (s : State) : Prop extends s.Clean where
  notHarmless : s.token.afterHarmless = false
  sawNoHarmless : s.log.sawHarmless = false
  settled : s.log.waiting = 0

/-- The tokens come next, on the same line, and no comment stands between them. -/
def Ahead : List Lexeme → State → Prop
  | [], _ => True
  | l :: ls, s =>
    ((Parser.next s).token.lexeme = l ∧ (Parser.next s).token.onNewLine = false ∧
      s.token.stop ≤ (Parser.next s).token.start ∧
      (Parser.next s).token.start < (Parser.next s).token.stop ∧
      Ready (Parser.next s) ∧ (Parser.next s).log.comments = s.log.comments) ∧ Ahead ls (Parser.next s)

/-- The tokens are in hand and come next. -/
def Sees : List Lexeme → State → Prop
  | [], _ => True
  | l :: ls, s => s.token.lexeme = l ∧ s.token.start < s.token.stop ∧ Ready s ∧ Ahead ls s

/-- The state after as many tokens. -/
def skip : Nat → State → State
  | 0, s => s
  | n + 1, s => skip n (Parser.next s)

section

variable {s : State} {text rest : List Char} {lexeme : Lexeme} {lexemes : List Lexeme}

theorem next_eq (h : Next s.rest lexeme rest) : ∃ trimmed start stop, s.token.stop ≤ start ∧
    start < stop ∧ Parser.next s =
      { s with
        token :=
          { lexeme, start, stop, onNewLine := false, afterHarmless := s.log.sawHarmless
            afterHarmlessFunction := s.log.sawHarmlessFunction }
        tokenText := trimmed, rest, log := s.log.token start (Parser.isOpener lexeme)
        previousStop := s.token.stop } := by
  obtain ⟨trimmed, start, stop, hle, hlt, hskip, hstray, hlex⟩ :=
    h.2 s.dialect.isModule s.token.stop s.log false
  refine ⟨trimmed, start, stop, hle, hlt, ?_⟩
  simp [Parser.next, Parser.nextOn, Parser.scan, hskip, hstray, hlex]

theorem rest_next (h : Next s.rest lexeme rest) : (Parser.next s).rest = rest := by
  obtain ⟨_, _, _, -, -, h⟩ := next_eq h
  rw [h]

theorem Lexes.ahead (h : Lexes text lexemes rest) (htext : s.rest = text) (hs : Ready s) :
    Ahead lexemes s := by
  induction h generalizing s with
  | nil => trivial
  | cons first _ ih =>
    subst htext
    have hrest := rest_next first
    obtain ⟨trimmed, start, stop, hle, hlt, hnext⟩ := next_eq first
    have hready : Ready (Parser.next s) := by
      rw [hnext]
      exact ⟨⟨hs.lexical, hs.complaints, hs.shortDefaults, hs.log, rfl⟩, hs.sawNoHarmless, rfl, rfl⟩
    refine ⟨?_, ih hrest hready⟩
    refine ⟨by rw [hnext], by rw [hnext], by rw [hnext]; exact hle, by rw [hnext]; exact hlt, hready, ?_⟩
    rw [hnext]
    simp [CommentLog.token, hs.settled, CommentLog.updateLatest]

theorem Lexes.rest_skip (h : Lexes text lexemes rest) (htext : s.rest = text) :
    (skip lexemes.length s).rest = rest := by
  induction h generalizing s with
  | nil => exact htext
  | cons first _ ih =>
    subst htext
    exact ih (rest_next first)

theorem Lexes.length_add_le (h : Lexes text lexemes rest) : rest.length + lexemes.length ≤ text.length := by
  induction h with
  | nil => exact Nat.le_refl _
  | cons first _ ih =>
    have hlt := first.1
    rw [List.length_cons]
    omega

/-! ### What is seen -/

theorem Sees.ahead {l : Lexeme} (h : Sees (l :: lexemes) s) : Ahead lexemes s := h.2.2.2

theorem Sees.ready {l : Lexeme} (h : Sees (l :: lexemes) s) : Ready s := h.2.2.1

theorem Sees.next {l : Lexeme} (h : Sees (l :: lexemes) s) : Sees lexemes (Parser.next s) := by
  cases lexemes with
  | nil => trivial
  | cons l' lexemes =>
    obtain ⟨-, -, -, ⟨hlexeme, -, -, hlt, hready, -⟩, hahead⟩ := h
    exact ⟨hlexeme, hlt, hready, hahead⟩

theorem Sees.lt_stop {l : Lexeme} (h : Sees (l :: lexemes) s) : s.token.start < s.token.stop := h.2.1

theorem Sees.stop_le {l : Lexeme} (h : Sees (l :: lexemes) s) (hne : lexemes ≠ []) :
    s.token.stop ≤ (Parser.next s).token.start := by
  cases lexemes with
  | nil => exact absurd rfl hne
  | cons l' lexemes => exact h.ahead.1.2.2.1

/-- Tokens that are all on one line are read from left to right. -/
theorem Sees.skip {front back : List Lexeme} {l l' : Lexeme} (h : Sees (l :: (front ++ l' :: back)) s) :
    Sees (l' :: back) (skip (front.length + 1) s) ∧
      s.token.start < (Plain.skip (front.length + 1) s).token.start ∧
      (Plain.skip (front.length + 1) s).token.onNewLine = false ∧
      (Plain.skip (front.length + 1) s).log.comments = s.log.comments := by
  induction front generalizing s l with
  | nil =>
    obtain ⟨-, hlt, -, ⟨-, hline, hle, -, -, hcomments⟩, -⟩ := id h
    exact ⟨h.next, Nat.lt_of_lt_of_le hlt hle, hline, hcomments⟩
  | cons first front ih =>
    obtain ⟨-, hlt, -, ⟨-, -, hle, -, -, hcomments⟩, -⟩ := id h
    obtain ⟨hsees, hlt', hline, hcomments'⟩ := ih h.next
    exact ⟨hsees, Nat.lt_trans (Nat.lt_of_lt_of_le hlt hle) hlt', hline, hcomments'.trans hcomments⟩

theorem skip_add (m n : Nat) (s : State) : skip (m + n) s = skip n (skip m s) := by
  induction m generalizing s with
  | zero => rw [Nat.zero_add]; rfl
  | succ m ih => rw [Nat.succ_add]; exact ih (Parser.next s)

theorem skip_succ (n : Nat) (s : State) : skip (n + 1) s = Parser.next (skip n s) := skip_add n 1 s

/-! ### Surroundings -/

/-- The state in other surroundings. -/
def within (c : Context) (s : State) : State := { s with context := c }

theorem next_within (c : Context) (s : State) :
    Parser.next (within c s) = within c (Parser.next s) := by
  unfold Parser.next Parser.nextOn within
  rfl

theorem skip_within (n : Nat) (c : Context) (s : State) : skip n (within c s) = within c (skip n s) := by
  induction n generalizing s with
  | zero => rfl
  | succ n ih => rw [skip, next_within, ih]; rfl

theorem context_skip (n : Nat) (s : State) : (skip n s).context = s.context := by
  induction n generalizing s with
  | zero => rfl
  | succ n ih =>
    rw [skip, ih]
    unfold Parser.next Parser.nextOn
    generalize Parser.scan _ _ _ _ _ _ _ = scanned
    rfl

theorem ready_within {c : Context} (h : Ready s) : Ready (within c s) :=
  ⟨⟨h.lexical, h.complaints, h.shortDefaults, h.token, h.log⟩, h.notHarmless, h.sawNoHarmless, h.settled⟩

theorem ahead_within {c : Context} (h : Ahead lexemes s) : Ahead lexemes (within c s) := by
  induction lexemes generalizing s with
  | nil => trivial
  | cons l lexemes ih =>
    obtain ⟨⟨hlexeme, hline, hle, hlt, hready, hcomments⟩, hahead⟩ := h
    simp only [Ahead, next_within]
    exact ⟨⟨hlexeme, hline, hle, hlt, ready_within hready, hcomments⟩, ih hahead⟩

theorem sees_within {c : Context} (h : Sees lexemes s) : Sees lexemes (within c s) := by
  cases lexemes with
  | nil => trivial
  | cons l lexemes =>
    obtain ⟨hlexeme, hlt, hready, hahead⟩ := h
    exact ⟨hlexeme, hlt, ready_within hready, ahead_within hahead⟩

/-- What a step in other surroundings comes to. -/
theorem withContext_meets {α : Type} {f : Context → Context} {p : Parser α}
    {done : α → State → Prop} {lost : Prop}
    (h : (p (within (f s.context) s)).Meets (fun a t => done a (within s.context t)) lost) :
    (Parser.withContext f p s).Meets done lost := by
  unfold Parser.withContext
  unfold within at h
  cases hstep : p { s with context := f s.context } with
  | ok a t =>
    rw [hstep] at h
    exact h
  | fatal d t =>
    rw [hstep] at h
    exact h

end

end PackageRefs.Plain
