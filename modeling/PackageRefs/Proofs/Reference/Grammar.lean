/-
# The texts that can be references

`isReference` reads a text several times: for its bytes, for characters of code, for three dots in a row,
for a slash at the end, and, if it starts with a dot, for steps, which it takes away one at a time.  Here
the texts that it accepts are described without any of this.

* `isRelativePath_iff`: what is left after the last step is what stands behind a list of steps, and there
  is only one such list, as what stands behind it does not start with a dot.
* `isReference_iff`: the accepted texts, for all texts.

The two steps do not overlap, although one starts like the other: behind the first dot stands a slash in
one and a dot in the other.
-/
import PackageRefs.Proofs.Text.Utf8
import PackageRefs.Reference.Filter

namespace PackageRefs

open PackageRefs.Text

/-! ## 1. Steps -/

/-- One step of a relative path: `./` or `../`. -/
inductive IsStep : List Char → Prop
  | here : IsStep ['.', '/']
  | up : IsStep ['.', '.', '/']

/-- The text consists of one step or more, in any order, and of something behind them that does not start
with a dot. -/
def IsRelative (text : List Char) : Prop :=
  ∃ steps rest, text = steps.flatten ++ rest ∧ steps ≠ [] ∧ (∀ step ∈ steps, IsStep step) ∧
    rest ≠ [] ∧ rest.head? ≠ some '.'

theorem afterSteps_step {step : List Char} (h : IsStep step) (rest : List Char) :
    afterSteps (step ++ rest) = afterSteps rest := by
  cases h <;> simp [afterSteps]

theorem startsWithStep_step {step : List Char} (h : IsStep step) (rest : List Char) :
    startsWithStep (step ++ rest) = true := by
  cases h <;> rfl

/-- What does not start with a dot has no steps. -/
theorem afterSteps_of_head {text : List Char} (h : text.head? ≠ some '.') : afterSteps text = text := by
  cases text with
  | nil => rfl
  | cons c r =>
    have hc : c ≠ '.' := by simpa using h
    simp [afterSteps, hc]

/-- All steps are taken away. -/
theorem afterSteps_flatten {steps : List (List Char)} (h : ∀ step ∈ steps, IsStep step)
    (rest : List Char) : afterSteps (steps.flatten ++ rest) = afterSteps rest := by
  induction steps with
  | nil => rfl
  | cons step steps ih =>
    obtain ⟨hstep, hsteps⟩ := List.forall_mem_cons.mp h
    rw [List.flatten_cons, List.append_assoc, afterSteps_step hstep, ih hsteps]

/-- What is taken away are steps, and none if the text starts with none. -/
theorem exists_steps (text : List Char) :
    ∃ steps, text = steps.flatten ++ afterSteps text ∧ (∀ step ∈ steps, IsStep step) ∧
      (startsWithStep text = true → steps ≠ []) := by
  fun_induction afterSteps text with
  | case1 r ih =>
    obtain ⟨steps, heq, hsteps, -⟩ := ih
    refine ⟨['.', '/'] :: steps, ?_, List.forall_mem_cons.mpr ⟨.here, hsteps⟩, fun _ => by simp⟩
    simpa using heq
  | case2 r ih =>
    obtain ⟨steps, heq, hsteps, -⟩ := ih
    refine ⟨['.', '.', '/'] :: steps, ?_, List.forall_mem_cons.mpr ⟨.up, hsteps⟩, fun _ => by simp⟩
    simpa using heq
  | case3 text hhere hup =>
    refine ⟨[], rfl, by simp, fun hstarts => ?_⟩
    unfold startsWithStep at hstarts
    split at hstarts
    · rename_i r
      exact absurd rfl (hhere r)
    · rename_i r
      exact absurd rfl (hup r)
    · cases hstarts

/-- **A relative path** consists of steps and of what they lead to. -/
theorem isRelativePath_iff {text : List Char} : isRelativePath text = true ↔ IsRelative text := by
  constructor
  · intro h
    obtain ⟨hstarts, hrest⟩ := Bool.and_eq_true_iff.mp h
    obtain ⟨steps, heq, hsteps, hsome⟩ := exists_steps text
    refine ⟨steps, afterSteps text, heq, hsome hstarts, hsteps, ?_⟩
    cases hafter : afterSteps text with
    | nil => simp [hafter] at hrest
    | cons c r =>
      rw [hafter] at hrest
      exact ⟨by simp, by simpa using hrest⟩
  · rintro ⟨steps, rest, rfl, hsome, hsteps, hne, hhead⟩
    obtain ⟨step, others, rfl⟩ := List.exists_cons_of_ne_nil hsome
    have hstarts : startsWithStep ((step :: others).flatten ++ rest) = true := by
      rw [List.flatten_cons, List.append_assoc]
      exact startsWithStep_step (hsteps step (by simp)) _
    rw [isRelativePath, hstarts, afterSteps_flatten hsteps, afterSteps_of_head hhead]
    obtain ⟨c, r, rfl⟩ := List.exists_cons_of_ne_nil hne
    simpa using hhead

/-! ## 2. Dots, bytes and characters -/

theorem hasEllipsis_iff {text : List Char} :
    hasEllipsis text = true ↔ ['.', '.', '.'] <:+: text := by
  fun_induction hasEllipsis text with
  | case1 r => simpa using (List.prefix_append ['.', '.', '.'] r).isInfix
  | case2 c r hdots ih =>
    have hnot : ¬['.', '.', '.'] <+: c :: r := by
      rintro ⟨rest, heq⟩
      rw [List.cons_append, List.cons.injEq] at heq
      obtain ⟨rfl, rfl⟩ := heq
      exact hdots rest rfl rfl
    rw [ih, List.infix_cons_iff, or_iff_right hnot]
  | case3 => simp

theorem byteCount_eq (s : String) : byteCount s.toList = s.utf8ByteSize := by
  have hfold : ∀ (text : List Char) (n : Nat),
      text.foldl (fun n c => n + c.utf8Size) n = n + (text.flatMap encodeChar).length := by
    intro text
    induction text with
    | nil => exact fun n => rfl
    | cons c r ih =>
      intro n
      have hc : (encodeChar c).length = c.utf8Size := String.length_utf8EncodeChar c
      rw [List.foldl_cons, ih, List.flatMap_cons, List.length_append, hc, Nat.add_assoc]
  rw [byteCount, hfold, Nat.zero_add, ← length_encode, encode]

/-- A character of code is a parenthesis, a brace, a plus sign or white space. -/
theorem isCodeChar_eq_false_iff {c : Char} :
    isCodeChar c = false ↔ c ∉ ['(', ')', '\x7b', '\x7d', '+'] ∧ isBlank c = false := by
  simp [isCodeChar, and_assoc]

/-! ## 3. The texts that are accepted -/

/-- **A text can be a reference** exactly if it has at least two bytes, no parenthesis, brace, plus sign or
white space, no three dots in a row and no slash at its end, and is a relative path if it starts with a
dot. -/
theorem isReference_iff (s : String) :
    isReference s = true ↔
      2 ≤ s.utf8ByteSize ∧
      (∀ c ∈ s.toList, c ∉ ['(', ')', '\x7b', '\x7d', '+'] ∧ isBlank c = false) ∧
      ¬['.', '.', '.'] <:+: s.toList ∧
      s.toList.getLast? ≠ some '/' ∧
      (s.toList.head? = some '.' → IsRelative s.toList) := by
  have hcode : (!s.toList.any isCodeChar) = true ↔
      ∀ c ∈ s.toList, c ∉ ['(', ')', '\x7b', '\x7d', '+'] ∧ isBlank c = false := by
    simp only [Bool.not_eq_true', List.any_eq_false, Bool.not_eq_true, isCodeChar_eq_false_iff]
  have hdot : (!(s.toList.head? == some '.' && !isRelativePath s.toList)) = true ↔
      (s.toList.head? = some '.' → IsRelative s.toList) := by
    rw [← isRelativePath_iff, Bool.not_eq_true', Bool.and_eq_false_imp, beq_iff_eq]
    simp
  have hdots : (!hasEllipsis s.toList) = true ↔ ¬['.', '.', '.'] <:+: s.toList := by
    rw [← hasEllipsis_iff, Bool.not_eq_true', Bool.not_eq_true]
  have hslash : (!(s.toList.getLast? == some '/')) = true ↔ s.toList.getLast? ≠ some '/' := by simp
  simp only [isReference, isReferenceText, Bool.and_eq_true, decide_eq_true_eq, byteCount_eq, hcode, hdot,
    hdots, hslash]
  constructor
  · rintro ⟨⟨⟨⟨hbytes, hchars⟩, hrelative⟩, hend⟩, hnone⟩
    exact ⟨hbytes, hchars, hnone, hend, hrelative⟩
  · rintro ⟨hbytes, hchars, hnone, hend, hrelative⟩
    exact ⟨⟨⟨⟨hbytes, hchars⟩, hrelative⟩, hend⟩, hnone⟩

example : isReference "./../a" = true := by decide

example : isReference ".././" = false := by decide

end PackageRefs
