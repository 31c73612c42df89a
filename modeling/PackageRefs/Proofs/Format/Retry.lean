/-
# The second call of the formatter

A file is formatted with the parser for its own language first.  If that fails there may be a second call,
with the general parser.  A `Try` is a call with its answer:

* what a single call comes to is read off the answer (`callFormatter_eq`);
* a failure is worth a second call unless the formatter was not found or the parser was the general one
  (`retries_failure_iff`);
* so the first call prints and that is it, or it fails and that is it, or there is a second one
  (`formatTwice_of_printed`, `formatTwice_of_not_retries`, `formatTwice_of_retries`).

`attempted_formatSource` puts this together with the check of what was printed.  The tries are kept in a
list, so that how many there were, what was passed to them, and which of them the result comes from are
statements about one list.
-/
import PackageRefs.Format.Formatter
import PackageRefs.Proofs.Machine.Running

namespace PackageRefs

open PackageRefs.Disk PackageRefs.Text

/-! ## 1. Calls one after the other -/

/-- From the first machine the calls are made in their order, and answered in the given way; the second
machine is what comes of it. -/
inductive Machine.Calls : Machine → List (Command × Except FileError Output) → Machine → Prop
  | none (m : Machine) : Machine.Calls m [] m
  | call {m m₁ m' : Machine} {command : Command} {answer : Except FileError Output}
      {rest : List (Command × Except FileError Output)} (run_eq : m.run command = (answer, m₁))
      (behind : Machine.Calls m₁ rest m') : Machine.Calls m ((command, answer) :: rest) m'

/-- The calls are kept by the machine, the last one first. -/
theorem Machine.Calls.commands_eq {m m' : Machine} {calls : List (Command × Except FileError Output)}
    (h : m.Calls calls m') :
    m'.calls.map Call.command = (calls.map Prod.fst).reverse ++ m.calls.map Call.command := by
  induction h with
  | none => rfl
  | @call m m₁ m' command answer rest hrun _ ih =>
    have hkept := Machine.orderly_run.calls_eq m command
    rw [hrun] at hkept
    rw [ih, hkept]
    simp

namespace Format

/-! ## 2. One call -/

/-- A call of the formatter with a parser, or with none, and how it was answered. -/
structure Try where
  parser : Option String
  answer : Except FileError Output

namespace Try

/-- The call. -/
def command (t : Try) (binary file : String) (style : Style) : Command :=
  ⟨binary, parserArguments t.parser ++ style.arguments ++ [file]⟩

/-- What was printed by a formatter that exited with 0. -/
def printed? (t : Try) : Option String :=
  match t.answer with
  | .ok output => if output.code = 0 then some output.text else none
  | .error _ => none

/-- What is wrong with a call after which there is nothing printed. -/
def failure (t : Try) (binary : String) : Failure :=
  match t.answer with
  | .ok output => complaintFailure output.complaint
  | .error e => startFailure binary e

end Try

/-- **One call** gives what was printed, or the failure. -/
theorem callFormatter_eq {binary file : String} {style : Style} {m m₁ : Machine} {t : Try}
    (hrun : m.run (t.command binary file style) = (t.answer, m₁)) :
    callFormatter binary file t.parser style m =
      (match t.printed? with
        | some text => .ok text
        | none => .error (t.failure binary), m₁) := by
  have hcommand : formatCommand binary file t.parser style = t.command binary file style := rfl
  unfold callFormatter
  rw [hcommand, hrun]
  unfold Try.printed? Try.failure Output.succeeded
  cases t.answer with
  | error e => rfl
  | ok output => by_cases hcode : output.code = 0 <;> simp [hcode]

/-- **A failure is worth a second call** unless the formatter was not found or the parser was the general
one. -/
theorem retries_failure_iff (t : Try) (binary : String) :
    retries t.parser (t.failure binary) = true ↔
      t.answer ≠ .error .notFound ∧ t.parser ≠ some generalParser := by
  unfold Try.failure retries
  cases t.answer with
  | ok output => simp [complaintFailure]
  | error e => cases e <;> simp [startFailure]

/-! ## 3. Two calls -/

/-- The try of a call on a machine. -/
theorem exists_try (m : Machine) (binary file : String) (style : Style) (parser : Option String) :
    ∃ (t : Try) (m₁ : Machine), t.parser = parser ∧
      m.run (t.command binary file style) = (t.answer, m₁) :=
  ⟨⟨parser, (m.run (formatCommand binary file parser style)).1⟩, _, rfl, rfl⟩

section

variable {binary file : String} {style : Style} {m m₁ m₂ : Machine} {first second : Try}

theorem formatTwice_of_printed {text : String} (hparser : first.parser = parserFor file)
    (hrun : m.run (first.command binary file style) = (first.answer, m₁))
    (hprinted : first.printed? = some text) :
    formatTwice binary file style m = (.ok (first.parser, text), m₁) := by
  have hcall := callFormatter_eq hrun
  rw [hprinted] at hcall
  unfold formatTwice
  dsimp only
  rw [← hparser, hcall]

theorem formatTwice_of_not_retries (hparser : first.parser = parserFor file)
    (hrun : m.run (first.command binary file style) = (first.answer, m₁))
    (hprinted : first.printed? = none)
    (hretries : retries first.parser (first.failure binary) = false) :
    formatTwice binary file style m = (.error (first.failure binary), m₁) := by
  have hcall := callFormatter_eq hrun
  rw [hprinted] at hcall
  unfold formatTwice
  dsimp only
  rw [← hparser, hcall]
  dsimp only
  rw [if_neg (by rw [hretries]; exact Bool.false_ne_true)]

theorem formatTwice_of_retries (hparser : first.parser = parserFor file)
    (hrun : m.run (first.command binary file style) = (first.answer, m₁))
    (hprinted : first.printed? = none)
    (hretries : retries first.parser (first.failure binary) = true)
    (hsecond : second.parser = some generalParser)
    (hrun₂ : m₁.run (second.command binary file style) = (second.answer, m₂)) :
    formatTwice binary file style m =
      (match second.printed? with
        | some text => .ok (second.parser, text)
        | none => .error (first.failure binary), m₂) := by
  have hcall := callFormatter_eq hrun
  rw [hprinted] at hcall
  have hcall₂ := callFormatter_eq hrun₂
  unfold formatTwice
  dsimp only
  rw [← hparser, hcall]
  dsimp only
  rw [if_pos hretries, ← hsecond, hcall₂]
  cases second.printed? <;> rfl

end

/-! ## 4. The result -/

/-- What is made of a text that was printed. -/
def verdict (style : Style) (source : String) (parser : Option String) (text : String) :
    Except Failure (Mode × String) :=
  if isBlankText text = true ∧ isBlankText source = false then .error nothingPrinted
  else .ok (.formatted style parser, text)

theorem formatSource_of_printed {binary file : String} {parser : Option String} {text : String}
    {m m' : Machine} (h : formatTwice binary file (styleOf m.disk file) m = (.ok (parser, text), m'))
    (source : String) :
    formatSource binary file source m = (verdict (styleOf m.disk file) source parser text, m') := by
  unfold formatSource verdict
  dsimp only
  rw [h]
  dsimp only
  cases isBlankText text <;> cases isBlankText source <;> rfl

theorem formatSource_of_failed {binary file : String} {e : Failure} {m m' : Machine}
    (h : formatTwice binary file (styleOf m.disk file) m = (.error e, m')) (source : String) :
    formatSource binary file source m = (.error e, m') := by
  unfold formatSource
  dsimp only
  rw [h]

/-- **A blank text never takes the place of one that is not.** -/
theorem blank_of_verdict {style : Style} {source text printed : String} {parser : Option String}
    {mode : Mode} (h : verdict style source parser printed = .ok (mode, text))
    (hblank : isBlankText text = true) : isBlankText source = true := by
  unfold verdict at h
  split at h
  · cases h
  · rename_i hcheck
    obtain ⟨-, rfl⟩ := Prod.mk.inj (Except.ok.inj h)
    simpa [hblank] using hcheck

/-- The tries that formatting a file takes, one or two of them. -/
structure Tried (binary file : String) (m : Machine) (first : Try) (second? : Option Try)
    (m' : Machine) : Prop where
  calls : m.Calls ((first :: second?.toList).map fun t =>
    (t.command binary file (styleOf m.disk file), t.answer)) m'
  commands_eq : m'.calls.map Call.command =
    ((first :: second?.toList).map fun t => t.command binary file (styleOf m.disk file)).reverse ++
      m.calls.map Call.command
  first_command : first.command binary file (styleOf m.disk file) =
    ⟨binary, parserArguments (parserFor file) ++ ((styleOf m.disk file).arguments ++ [file])⟩
  second_command : ∀ second ∈ second?, second.command binary file (styleOf m.disk file) =
    ⟨binary, ["--parser", generalParser] ++ ((styleOf m.disk file).arguments ++ [file])⟩
  /-- A second call is made exactly if it can help. -/
  second_iff : second?.isSome = true ↔ first.printed? = none ∧ first.answer ≠ .error .notFound ∧
    parserFor file ≠ some generalParser

/-- The tries that formatting a file takes, and what its result has to do with them. -/
structure Attempted (binary file source : String) (m : Machine) (first : Try) (second? : Option Try)
    (result : Except Failure (Mode × String)) (m' : Machine) : Prop
    extends Tried binary file m first second? m' where
  /-- If no call printed anything, the first failure counts. -/
  result_of_none : (∀ t ∈ first :: second?.toList, t.printed? = none) →
    result = .error (first.failure binary)
  /-- Otherwise just one call printed something, and its text and its parser count. -/
  result_of_printed : ∀ t ∈ first :: second?.toList, ∀ text, t.printed? = some text →
    (first :: second?.toList).countP (fun u => u.printed?.isSome) = 1 ∧
      result = verdict (styleOf m.disk file) source t.parser text
  blank_of_ok : ∀ mode text, result = .ok (mode, text) → isBlankText text = true →
    isBlankText source = true

section

variable {binary file : String} {m m₁ m₂ : Machine} {first second : Try}

theorem command_eq_of_parser_eq {t : Try} {parser : Option String} (h : t.parser = parser)
    (binary file : String) (style : Style) :
    t.command binary file style =
      ⟨binary, parserArguments parser ++ (style.arguments ++ [file])⟩ := by
  rw [← h, ← List.append_assoc]
  rfl

/-- One try, after which another one would not help. -/
theorem tried_first (hparser : first.parser = parserFor file)
    (hrun : m.run (first.command binary file (styleOf m.disk file)) = (first.answer, m₁))
    (hend : first.printed? = none → retries first.parser (first.failure binary) = false) :
    Tried binary file m first none m₁ := by
  have hcalls : m.Calls [(first.command binary file (styleOf m.disk file), first.answer)] m₁ :=
    .call hrun (.none m₁)
  refine ⟨hcalls, hcalls.commands_eq, command_eq_of_parser_eq hparser _ _ _, by simp, ?_⟩
  have hno : first.printed? = none →
      ¬(first.answer ≠ .error .notFound ∧ parserFor file ≠ some generalParser) := by
    intro hprinted
    rw [← hparser, ← retries_failure_iff first binary, hend hprinted]
    exact Bool.false_ne_true
  simpa using fun hprinted => not_and.mp (hno hprinted)

/-- Two tries, the first of which failed. -/
theorem tried_second (hparser : first.parser = parserFor file)
    (hrun : m.run (first.command binary file (styleOf m.disk file)) = (first.answer, m₁))
    (hprinted : first.printed? = none)
    (hretries : retries first.parser (first.failure binary) = true)
    (hsecond : second.parser = some generalParser)
    (hrun₂ : m₁.run (second.command binary file (styleOf m.disk file)) = (second.answer, m₂)) :
    Tried binary file m first (some second) m₂ := by
  have hcalls : m.Calls [(first.command binary file (styleOf m.disk file), first.answer),
      (second.command binary file (styleOf m.disk file), second.answer)] m₂ :=
    .call hrun (.call hrun₂ (.none m₂))
  have hhelps : first.answer ≠ .error .notFound ∧ parserFor file ≠ some generalParser :=
    hparser ▸ (retries_failure_iff first binary).mp hretries
  refine ⟨hcalls, hcalls.commands_eq, command_eq_of_parser_eq hparser _ _ _, ?_, ?_⟩
  · rintro t ⟨⟩
    exact command_eq_of_parser_eq hsecond _ _ _
  · simpa using ⟨hprinted, hhelps⟩

theorem attempted_first (source : String) (hparser : first.parser = parserFor file)
    (hrun : m.run (first.command binary file (styleOf m.disk file)) = (first.answer, m₁))
    (hend : first.printed? = none → retries first.parser (first.failure binary) = false) :
    Attempted binary file source m first none (formatSource binary file source m).1
      (formatSource binary file source m).2 := by
  have htried := tried_first hparser hrun hend
  cases hprinted : first.printed? with
  | some text =>
    rw [formatSource_of_printed (formatTwice_of_printed hparser hrun hprinted) source]
    refine ⟨htried, ?_, ?_, fun _ _ => blank_of_verdict⟩
    · exact fun h => by simp [hprinted] at h
    · simp [hprinted]
  | none =>
    rw [formatSource_of_failed (formatTwice_of_not_retries hparser hrun hprinted (hend hprinted)) source]
    refine ⟨htried, fun _ => rfl, ?_, ?_⟩
    · simp [hprinted]
    · simp

theorem attempted_second (source : String) (hparser : first.parser = parserFor file)
    (hrun : m.run (first.command binary file (styleOf m.disk file)) = (first.answer, m₁))
    (hprinted : first.printed? = none)
    (hretries : retries first.parser (first.failure binary) = true)
    (hsecond : second.parser = some generalParser)
    (hrun₂ : m₁.run (second.command binary file (styleOf m.disk file)) = (second.answer, m₂)) :
    Attempted binary file source m first (some second) (formatSource binary file source m).1
      (formatSource binary file source m).2 := by
  have htried := tried_second hparser hrun hprinted hretries hsecond hrun₂
  have htwice := formatTwice_of_retries hparser hrun hprinted hretries hsecond hrun₂
  cases hprinted₂ : second.printed? with
  | some text =>
    rw [hprinted₂] at htwice
    rw [formatSource_of_printed htwice source]
    refine ⟨htried, ?_, ?_, fun _ _ => blank_of_verdict⟩
    · exact fun h => by simp [hprinted, hprinted₂] at h
    · simp [hprinted, hprinted₂]
  | none =>
    rw [hprinted₂] at htwice
    rw [formatSource_of_failed htwice source]
    refine ⟨htried, fun _ => rfl, ?_, ?_⟩
    · simp [hprinted, hprinted₂]
    · simp

end

/-- **Formatting a file takes one try or two.**  For every file, every source, and whatever the calls are
answered: a second call is made exactly if the first failed, the formatter was found and the parser was not
the general one; it differs from the first in the parser only.  The result is the first failure if none of
the calls succeeded, and otherwise what the one that did has printed -- unless that is blank and the source
is not. -/
theorem attempted_formatSource (binary file source : String) (m : Machine) :
    ∃ (first : Try) (second? : Option Try), Attempted binary file source m first second?
      (formatSource binary file source m).1 (formatSource binary file source m).2 := by
  obtain ⟨first, m₁, hparser, hrun⟩ :=
    exists_try m binary file (styleOf m.disk file) (parserFor file)
  by_cases hend : first.printed? = none → retries first.parser (first.failure binary) = false
  · exact ⟨first, none, attempted_first source hparser hrun hend⟩
  · simp only [Classical.not_imp, Bool.not_eq_false] at hend
    obtain ⟨hprinted, hretries⟩ := hend
    obtain ⟨second, m₂, hsecond, hrun₂⟩ :=
      exists_try m₁ binary file (styleOf m.disk file) (some generalParser)
    exact ⟨first, some second,
      attempted_second source hparser hrun hprinted hretries hsecond hrun₂⟩

end Format

end PackageRefs
