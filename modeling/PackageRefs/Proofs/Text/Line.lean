/-
# The lines of a text

`linesOf` divides a text into lines, each with its line feed; the last one may lack it.  `AreLines` says
that a list of texts consists of such lines, which stays so when some of them are left out.

What has no line feed cannot go over from one line to the next.  So it occurs in a text exactly if it
occurs in one of its lines (`infix_flatten_iff`).
-/
import Mathlib.Data.List.Infix
import PackageRefs.Text.Search

namespace PackageRefs.Text

/-! ## 1. Lines -/

/-- The lines of a text, each with its line feed. -/
def linesOf : List Char → List (List Char)
  | [] => []
  | c :: r =>
    if c = '\n' then ['\n'] :: linesOf r
    else
      match linesOf r with
      | [] => [[c]]
      | line :: lines => (c :: line) :: lines

/-- The texts are lines: each ends in its only line feed, but for the last, which may lack it. -/
inductive AreLines : List (List Char) → Prop
  | nil : AreLines []
  | last {line : List Char} (unended : '\n' ∉ line) (nonempty : line ≠ []) : AreLines [line]
  | cons {body : List Char} {lines : List (List Char)} (unbroken : '\n' ∉ body)
      (rest : AreLines lines) : AreLines ((body ++ ['\n']) :: lines)

theorem areLines_linesOf (text : List Char) : AreLines (linesOf text) := by
  fun_induction linesOf text with
  | case1 => exact .nil
  | case2 r ih => exact @AreLines.cons [] _ (by simp) ih
  | case3 c r hc hnil ih => exact .last (by simpa using Ne.symm hc) (by simp)
  | case4 c r hc line lines hlines ih =>
    rw [hlines] at ih
    cases ih with
    | last unended nonempty => exact .last (by simp [Ne.symm hc, unended]) (by simp)
    | cons unbroken rest => exact @AreLines.cons (c :: _) _ (by simp [Ne.symm hc, unbroken]) rest

/-- The lines of a text put together are the text. -/
theorem flatten_linesOf (text : List Char) : (linesOf text).flatten = text := by
  fun_induction linesOf text with
  | case1 => rfl
  | case2 r ih => simp [ih]
  | case3 c r hc hnil ih =>
    rw [hnil] at ih
    simp [← ih]
  | case4 c r hc line lines hlines ih =>
    rw [hlines] at ih
    simp [← ih]

/-- Lines stay lines when some are left out. -/
theorem AreLines.filter {lines : List (List Char)} (h : AreLines lines) (keep : List Char → Bool) :
    AreLines (lines.filter keep) := by
  induction h with
  | nil => exact .nil
  | last unended nonempty =>
    rw [List.filter_cons, List.filter_nil]
    split
    · exact .last unended nonempty
    · exact .nil
  | cons unbroken rest ih =>
    rw [List.filter_cons]
    split
    · exact .cons unbroken ih
    · exact ih

/-! ## 2. What occurs in a line -/

variable {name body rest : List Char}

/-- What has no line feed starts a text exactly if it starts the first line. -/
theorem prefix_append_lineFeed_iff (hname : '\n' ∉ name) :
    name <+: body ++ '\n' :: rest ↔ name <+: body := by
  induction body generalizing name with
  | nil =>
    cases name with
    | nil => simp
    | cons c name =>
      have hc : c ≠ '\n' := by
        rintro rfl
        simp at hname
      simp [List.cons_prefix_cons, hc]
  | cons b body ih =>
    cases name with
    | nil => simp
    | cons c name =>
      have hname : '\n' ∉ name := fun hmem => hname (List.mem_cons_of_mem c hmem)
      rw [List.cons_append, List.cons_prefix_cons, List.cons_prefix_cons, ih hname]

/-- What has no line feed occurs on one side of a line feed or on the other. -/
theorem infix_append_lineFeed_iff (hname : '\n' ∉ name) :
    name <:+: body ++ '\n' :: rest ↔ name <:+: body ∨ name <:+: rest := by
  induction body with
  | nil =>
    have hstarts := @prefix_append_lineFeed_iff name [] rest hname
    rw [List.nil_append] at hstarts
    rw [List.nil_append, List.infix_cons_iff, hstarts, List.prefix_nil, List.infix_nil]
  | cons b body ih =>
    rw [List.cons_append, List.infix_cons_iff, ← List.cons_append, prefix_append_lineFeed_iff hname,
      ih, List.infix_cons_iff, or_assoc]

/-- A line holds a name exactly if it does without its line feed. -/
theorem infix_append_ended_iff (hname : '\n' ∉ name) (hne : name ≠ []) :
    name <:+: body ++ ['\n'] ↔ name <:+: body := by
  rw [infix_append_lineFeed_iff hname, List.infix_nil, or_iff_left hne]

/-- **What has no line feed occurs in a text** exactly if it occurs in a line. -/
theorem infix_flatten_iff (hname : '\n' ∉ name) (hne : name ≠ []) {lines : List (List Char)}
    (h : AreLines lines) : name <:+: lines.flatten ↔ ∃ line ∈ lines, name <:+: line := by
  induction h with
  | nil => simp [hne]
  | last => simp
  | cons unbroken rest ih =>
    rw [List.flatten_cons, List.append_assoc, List.singleton_append,
      infix_append_lineFeed_iff hname, ih, List.exists_mem_cons_iff, infix_append_ended_iff hname hne]

/-- What occurs in a text starts somewhere in it. -/
theorem infix_iff_exists_drop {text : List Char} :
    name <:+: text ↔ ∃ i ≤ text.length, name <+: text.drop i := by
  constructor
  · intro h
    obtain ⟨t, hstarts, hsuffix⟩ := List.infix_iff_prefix_suffix.mp h
    refine ⟨text.length - t.length, Nat.sub_le .., ?_⟩
    rwa [← List.suffix_iff_eq_drop.mp hsuffix]
  · rintro ⟨i, -, hstarts⟩
    exact hstarts.isInfix.trans (List.drop_suffix ..).isInfix

end PackageRefs.Text
