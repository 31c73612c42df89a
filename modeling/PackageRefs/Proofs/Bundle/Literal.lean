/-
# Names between single quotes

A name is written between single quotes with a backslash before every backslash and every quote of its
own.  Two passes over the name do the same if backslashes come first (`marked_marked`).

A reader of string literals takes each escape back in one step, so the literal ends where the name does
and not before (`readString_escaped`), whatever stands behind it.  Only a line feed or a carriage return in
the name breaks the literal, and then nothing behind it can mend that (`readString_of_broken`).
-/
import Mathlib.Tactic.Common
import PackageRefs.Bundle.Entry
import PackageRefs.Script.Lexer.Quoted

namespace PackageRefs.Bundle

open PackageRefs.Script PackageRefs.Text

/-! ## 1. Escapes -/

/-- The text holds neither of the characters that end the line within a literal. -/
def Unbroken (text : List Char) : Prop := '\n' ∉ text ∧ '\r' ∉ text

instance (text : List Char) : Decidable (Unbroken text) :=
  inferInstanceAs (Decidable ('\n' ∉ text ∧ '\r' ∉ text))

theorem unbroken_cons {c : Char} {text : List Char} :
    Unbroken (c :: text) ↔ (c ≠ '\n' ∧ c ≠ '\r') ∧ Unbroken text := by
  simp only [Unbroken, List.mem_cons, not_or]
  tauto

/-- The text with a backslash before every occurrence of a character. -/
def marked (mark : Char) (text : List Char) : List Char :=
  text.flatMap fun c => if c == mark then ['\\', c] else [c]

/-- Names can be escaped in two passes, if the one for backslashes comes first. -/
theorem marked_marked (text : List Char) :
    marked '\'' (marked '\\' text) = text.flatMap escapedChar := by
  rw [marked, marked, List.flatMap_assoc]
  congr 1
  funext c
  by_cases hslash : c = '\\'
  · subst hslash
    rfl
  · simp [escapedChar, hslash]

/-- The pass for backslashes would take those before quotes for part of the name. -/
example : marked '\\' (marked '\'' ['\'']) ≠ ['\''].flatMap escapedChar := by decide

theorem length_le_escaped (text : List Char) : text.length ≤ (text.flatMap escapedChar).length := by
  induction text with
  | nil => simp
  | cons c text ih =>
    have hc : 1 ≤ (escapedChar c).length := by
      unfold escapedChar
      split <;> simp
    rw [List.flatMap_cons, List.length_append, List.length_cons]
    omega

/-- The fuel for the characters of a name is there, and more. -/
theorem exists_fuel (text tail : List Char) : ∃ fuel,
    (text.flatMap escapedChar ++ tail).length + 1 = text.length + (fuel + 1) := by
  have hlength := length_le_escaped text
  refine ⟨(text.flatMap escapedChar ++ tail).length - text.length, ?_⟩
  rw [List.length_append]
  omega

/-! ## 2. Code points -/

theorem isSurrogate_toNat (c : Char) : Lexer.isSurrogate c.toNat = false := by
  have hvalid : c.toNat < 0xD800 ∨ 0xDFFF < c.toNat ∧ c.toNat < 0x110000 := c.valid
  simp only [Lexer.isSurrogate, Bool.and_eq_false_iff, decide_eq_false_iff_not]
  omega

theorem joinSurrogates_toNat : ∀ text : List Char,
    Lexer.joinSurrogates (text.map Char.toNat) = text.map Char.toNat
  | [] | [_] => rfl
  | c :: d :: text => by
    have hfirst : (0xD800 ≤ c.toNat && c.toNat ≤ 0xDBFF) = false := by
      have hc := isSurrogate_toNat c
      simp only [Lexer.isSurrogate, Bool.and_eq_false_iff, decide_eq_false_iff_not] at hc ⊢
      omega
    have ih := joinSurrogates_toNat (d :: text)
    simp only [List.map_cons] at ih ⊢
    rw [Lexer.joinSurrogates, hfirst, ih]
    rfl

/-- The code points of characters stand for these characters. -/
theorem textOfPoints_toNat (text : List Char) :
    Lexer.textOfPoints (text.map Char.toNat) = (String.ofList text, false) := by
  have hwhole : (text.map Char.toNat).any Lexer.isSurrogate = false := by
    simp [isSurrogate_toNat]
  have hback : (text.map Char.toNat).map Char.ofNat = text := by
    simp [Function.comp_def]
  simp only [Lexer.textOfPoints, joinSurrogates_toNat, hwhole, hback, Bool.false_eq_true, if_false]

/-! ## 3. Reading -/

section

variable {text : List Char}

/-- A character that does not end the line is read in one step, with the backslash before it. -/
theorem readStringBody_escapedChar {c : Char} (hfeed : c ≠ '\n') (hreturn : c ≠ '\r') (fuel : Nat)
    (tail : List Char) (seen : List Nat) (complaints : List Diagnostic) :
    Lexer.readStringBody '\'' (fuel + 1) (escapedChar c ++ tail) seen complaints =
      Lexer.readStringBody '\'' fuel tail (c.toNat :: seen) complaints := by
  by_cases hslash : c = '\\'
  · subst hslash
    simp [escapedChar, Lexer.readStringBody, Lexer.readEscape, Lexer.isLineBreak, isAsciiDigit]
  by_cases hquote : c = '\''
  · subst hquote
    simp [escapedChar, Lexer.readStringBody, Lexer.readEscape, Lexer.isLineBreak, isAsciiDigit]
  · simp [escapedChar, Lexer.readStringBody, hslash, hquote, hfeed, hreturn]

theorem readStringBody_escaped (h : Unbroken text) (fuel : Nat) (tail : List Char) (seen : List Nat)
    (complaints : List Diagnostic) :
    Lexer.readStringBody '\'' (text.length + fuel) (text.flatMap escapedChar ++ tail) seen complaints =
      Lexer.readStringBody '\'' fuel tail ((text.map Char.toNat).reverse ++ seen) complaints := by
  induction text generalizing seen with
  | nil => simp
  | cons c text ih =>
    obtain ⟨⟨hfeed, hreturn⟩, h⟩ := unbroken_cons.mp h
    have hlength : (c :: text).length + fuel = text.length + fuel + 1 := by
      rw [List.length_cons]
      omega
    rw [List.flatMap_cons, List.append_assoc, hlength, readStringBody_escapedChar hfeed hreturn,
      ih h]
    simp

/-- **What is read between the quotes** is the name, and what stands behind them is left. -/
theorem readString_escaped (h : Unbroken text) (rest : List Char) (pos : Nat) :
    ∃ stop, Lexer.readString '\'' (text.flatMap escapedChar ++ '\'' :: rest) pos =
      ⟨.string (String.ofList text) false (String.ofList (text.flatMap escapedChar)), rest, stop,
        []⟩ := by
  obtain ⟨fuel, hfuel⟩ := exists_fuel text ('\'' :: rest)
  have hbody : Lexer.readStringBody '\'' (text.length + (fuel + 1))
      (text.flatMap escapedChar ++ '\'' :: rest) [] [] = some (text.map Char.toNat, rest, []) := by
    rw [readStringBody_escaped h]
    simp [Lexer.readStringBody]
  have hused : (text.flatMap escapedChar ++ '\'' :: rest).length - rest.length - 1 =
      (text.flatMap escapedChar).length := by
    rw [List.length_append, List.length_cons]
    omega
  unfold Lexer.readString
  rw [hfuel, hbody]
  simp only [textOfPoints_toNat, hused, List.take_left]
  exact ⟨_, rfl⟩

/-- A line break gives the string up, whatever fuel is left. -/
theorem readStringBody_of_lineBreak {c : Char} (hc : c = '\n' ∨ c = '\r') (fuel : Nat)
    (tail : List Char) (seen : List Nat) (complaints : List Diagnostic) :
    Lexer.readStringBody '\'' fuel (c :: tail) seen complaints = none := by
  cases fuel with
  | zero => rfl
  | succ fuel => rcases hc with rfl | rfl <;> simp [Lexer.readStringBody]

/-- The part of a text before its first line break. -/
theorem exists_of_not_unbroken (h : ¬ Unbroken text) :
    ∃ before c after, text = before ++ c :: after ∧ Unbroken before ∧ (c = '\n' ∨ c = '\r') := by
  induction text with
  | nil => exact absurd (by decide) h
  | cons d text ih =>
    by_cases hd : d = '\n' ∨ d = '\r'
    · exact ⟨[], d, text, rfl, by decide, hd⟩
    · rw [not_or] at hd
      have htext : ¬ Unbroken text := fun htext => h (unbroken_cons.mpr ⟨hd, htext⟩)
      obtain ⟨before, c, after, rfl, hbefore, hc⟩ := ih htext
      exact ⟨d :: before, c, after, rfl, unbroken_cons.mpr ⟨hd, hbefore⟩, hc⟩

/-- **A literal with a line break in it** is never closed, whatever stands behind it. -/
theorem readString_of_broken (h : ¬ Unbroken text) (tail : List Char) (pos : Nat) :
    ∃ stop, Lexer.readString '\'' (text.flatMap escapedChar ++ tail) pos =
      ⟨.broken, Lexer.dropLine (text.flatMap escapedChar ++ tail), stop, [.unterminatedString]⟩ := by
  obtain ⟨before, c, after, rfl, hbefore, hc⟩ := exists_of_not_unbroken h
  have hwritten : (before ++ c :: after).flatMap escapedChar ++ tail =
      before.flatMap escapedChar ++ c :: (after.flatMap escapedChar ++ tail) := by
    rcases hc with rfl | rfl <;> simp [escapedChar]
  obtain ⟨fuel, hfuel⟩ := exists_fuel before (c :: (after.flatMap escapedChar ++ tail))
  unfold Lexer.readString
  rw [hwritten, hfuel, readStringBody_escaped hbefore, readStringBody_of_lineBreak hc]
  exact ⟨_, rfl⟩

end

end PackageRefs.Bundle
