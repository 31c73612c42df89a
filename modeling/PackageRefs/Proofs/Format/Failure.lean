/-
# Runs that fail without a backup

A removal without force and a formatting run both read their file, make a new text of it, and write that
over the file.  Neither keeps a copy of what was there.

* Everything before the write leaves the disk as it is.  This needs an argument only for the formatter,
  which is called once or twice: `undisturbed_run` is the step, for tools that write nothing.
* The write empties the file before it can fail.  The one way for it to fail is the limit, and then the
  file holds as much of the new text as fits (`Machine.CutOff`).

`run_error_cases` puts this together for both kinds of runs.  That a file can be cut off is shown by
`Example.removal_cutOff` and `Example.formatting_cutOff`.
-/
import PackageRefs.Format.File
import PackageRefs.Proofs.Disk.Frame
import PackageRefs.Proofs.Removal.Forced

namespace PackageRefs

open PackageRefs.Disk PackageRefs.Text

/-! ## 1. Tools that write nothing -/

namespace Machine

/-- No tool that is called writes a file: no program on the disk does, and no answer that is prepared. -/
def ToolsWriteNothing (m : Machine) : Prop :=
  match m.runner with
  | .installed => ∀ place content program,
      m.disk.entry? place = some (.file content (some program)) → program.writes = none
  | .prepared answers => ∀ output writes, Answer.runs output writes ∈ answers → writes = none

/-- The second machine has the disk and the limit of the first, and its tools write nothing. -/
structure Undisturbed (m m' : Machine) : Prop where
  disk_eq : m'.disk = m.disk
  limit_eq : m'.limit = m.limit
  tools : m'.ToolsWriteNothing

theorem Undisturbed.trans {m m' m'' : Machine} (h : m.Undisturbed m') (h' : m'.Undisturbed m'') :
    m.Undisturbed m'' :=
  ⟨h'.disk_eq.trans h.disk_eq, h'.limit_eq.trans h.limit_eq, h'.tools⟩

theorem writeOutfile_none (m : Machine) (arguments : List String) :
    m.writeOutfile arguments none = (none, m) := by
  unfold writeOutfile
  cases outfile? arguments <;> rfl

/-- The program on the disk writes nothing, and the machine stays the same. -/
theorem runInstalled_snd {m : Machine} (h : m.ToolsWriteNothing) (hrunner : m.runner = .installed)
    (command : Command) : (m.runInstalled command).2 = m := by
  have hprograms : ∀ place content program,
      m.disk.entry? place = some (.file content (some program)) → program.writes = none := by
    unfold ToolsWriteNothing at h
    rwa [hrunner] at h
  unfold runInstalled
  split
  · rename_i content program hlookup
    obtain ⟨place, -, hentry⟩ := Disk.lookup_eq_ok_iff.mp hlookup
    rw [hprograms place content program hentry, writeOutfile_none]
  · rfl
  · rfl

/-- A prepared answer is used up, and nothing else happens. -/
theorem undisturbed_runPrepared {m : Machine} {answers : List Answer} (h : m.ToolsWriteNothing)
    (hrunner : m.runner = .prepared answers) (command : Command) :
    m.Undisturbed (m.runPrepared command answers).2 := by
  have hanswers : ∀ output writes, Answer.runs output writes ∈ answers → writes = none := by
    unfold ToolsWriteNothing at h
    rwa [hrunner] at h
  cases answers with
  | nil => exact ⟨rfl, rfl, h⟩
  | cons answer rest =>
    have hrest : ({ m with runner := .prepared rest } : Machine).ToolsWriteNothing :=
      fun output writes hmem => hanswers output writes (List.mem_cons_of_mem _ hmem)
    cases answer with
    | refuses e => exact ⟨rfl, rfl, hrest⟩
    | runs output writes =>
      obtain rfl := hanswers output writes (List.mem_cons_self ..)
      simp only [runPrepared, writeOutfile_none]
      exact ⟨rfl, rfl, hrest⟩

/-- **A call leaves the disk alone** where tools write nothing, and so will the next call. -/
theorem undisturbed_run {m : Machine} (h : m.ToolsWriteNothing) (command : Command) :
    m.Undisturbed (m.run command).2 := by
  unfold run
  generalize hcalled : ({ m with calls := ⟨command, m.disk⟩ :: m.calls } : Machine) = called
  have hsame : m.Undisturbed called := by
    subst hcalled
    exact ⟨rfl, rfl, h⟩
  refine hsame.trans ?_
  dsimp only
  split
  · rename_i hrunner
    rw [runInstalled_snd hsame.tools hrunner]
    exact ⟨rfl, rfl, hsame.tools⟩
  · rename_i answers hrunner
    exact undisturbed_runPrepared hsame.tools hrunner command

end Machine

namespace Format

/-- A call of the formatter does to the machine what the call of a program does. -/
theorem callFormatter_snd (binary file : String) (parser : Option String) (style : Style)
    (m : Machine) : (callFormatter binary file parser style m).2 =
      (m.run (formatCommand binary file parser style)).2 := by
  unfold callFormatter
  cases m.run (formatCommand binary file parser style) with
  | mk answer m₁ =>
    cases answer with
    | error e => rfl
    | ok output => dsimp only; split <;> rfl

theorem undisturbed_formatTwice {m : Machine} (h : m.ToolsWriteNothing) (binary file : String)
    (style : Style) : m.Undisturbed (formatTwice binary file style m).2 := by
  have hcall : ∀ m : Machine, m.ToolsWriteNothing → ∀ parser,
      m.Undisturbed (callFormatter binary file parser style m).2 := by
    intro m h parser
    rw [callFormatter_snd]
    exact Machine.undisturbed_run h _
  have hfirst := hcall m h (parserFor file)
  unfold formatTwice
  dsimp only
  cases hc : callFormatter binary file (parserFor file) style m with
  | mk result m₁ =>
    rw [hc] at hfirst
    cases result with
    | ok output => exact hfirst
    | error e =>
      dsimp only
      split
      · have hsecond := hfirst.trans (hcall m₁ hfirst.tools (some generalParser))
        cases hc' : callFormatter binary file (some generalParser) style m₁ with
        | mk result m₂ =>
          rw [hc'] at hsecond
          cases result <;> exact hsecond
      · exact hfirst

theorem undisturbed_formatSource {m : Machine} (h : m.ToolsWriteNothing)
    (binary file source : String) : m.Undisturbed (formatSource binary file source m).2 := by
  have htwice := undisturbed_formatTwice h binary file (styleOf m.disk file)
  unfold formatSource
  dsimp only
  cases hf : formatTwice binary file (styleOf m.disk file) m with
  | mk result m₁ =>
    rw [hf] at htwice
    cases result with
    | error e => exact htwice
    | ok printed => dsimp only; split <;> exact htwice

/-- **Making the new text** leaves the disk alone, whatever becomes of it. -/
theorem FormatRequest.undisturbed_newText {m : Machine} (h : m.ToolsWriteNothing)
    (request : FormatRequest) (source : String) : m.Undisturbed (request.newText source m).2 := by
  have hsame : m.Undisturbed m := ⟨rfl, rfl, h⟩
  unfold newText
  split
  · split <;> exact hsame
  · split
    · exact hsame
    · exact undisturbed_formatSource h _ _ _

end Format

/-! ## 2. Writing over a file -/

/-- The write of a text over a file stopped at the limit: the failure says so, and the file holds as much
of the text as fits. -/
structure Machine.CutOff (m m' : Machine) (file text : String) (e : Failure) : Prop where
  exceeds : Disk.exceeds m.limit (encode text) = true
  failure_eq : e = .file file .tooLarge
  read_eq : m'.disk.read file = .ok (Disk.fitting m.limit (encode text))

/-- A text that cannot be saved over a file is cut off. -/
theorem Machine.cutOff_of_save {m m' : Machine} {file text source : String} {e : Failure}
    (hsource : m.disk.readSource file = .ok source) (hsave : m.save file text = (.error e, m')) :
    m.CutOff m' file text e := by
  obtain ⟨content, hread, -⟩ := Disk.readSource_eq_ok_iff.mp hsource
  obtain ⟨p, hheld⟩ := Disk.exists_holdsAt_of_read hread
  obtain ⟨program, ⟨hexceeds, hsaved⟩ | ⟨-, hsaved⟩⟩ :=
    Machine.save_of_locate text hheld.locate_eq hheld.ne_directory
  · rw [hsave, Prod.mk.injEq, Except.error.injEq] at hsaved
    obtain ⟨rfl, rfl⟩ := hsaved
    exact ⟨hexceeds, rfl, (Machine.holdsAt_written _ program hheld.locate_eq
      hheld.ne_directory).read_eq⟩
  · rw [hsave] at hsaved
    cases hsaved

/-! ## 3. Both kinds of runs -/

/-- A removal without force that fails has done nothing to the disk, or was cut off. -/
theorem RemovalRequest.run_exact_error {request : RemovalRequest} (hforce : request.force = false)
    {m m' : Machine} {e : Failure} (hrun : request.run m = (.error e, m')) :
    m'.disk = m.disk ∨
      ∃ source r, m.disk.readSource request.file = .ok source ∧
        removeStructurally request.file source request.package .exact = .changed r ∧
        m.CutOff m' request.file r.code e := by
  cases hsource : m.disk.readSource request.file with
  | error e' =>
    rw [run_of_readSource_error hsource] at hrun
    exact .inl (by rw [(Prod.mk.inj hrun).2])
  | ok source =>
    rw [run_eq_runExact hforce hsource] at hrun
    unfold runExact at hrun
    cases hremove : removeStructurally request.file source request.package .exact with
    | unreadable complaint =>
      rw [hremove] at hrun
      exact .inl (by rw [(Prod.mk.inj hrun).2])
    | unchanged =>
      rw [hremove] at hrun
      cases hrun
    | changed r =>
      rw [hremove] at hrun
      dsimp only at hrun
      cases hsave : m.save request.file r.code with
      | mk result m₁ =>
        cases result with
        | ok _ =>
          rw [hsave] at hrun
          cases hrun
        | error e' =>
          rw [hsave, Prod.mk.injEq, Except.error.injEq] at hrun
          obtain ⟨rfl, rfl⟩ := hrun
          exact .inr ⟨source, r, rfl, hremove, Machine.cutOff_of_save hsource hsave⟩

/-- A formatting run that fails has done nothing to the disk, or was cut off. -/
theorem Format.FormatRequest.run_error {request : FormatRequest} {m m' : Machine}
    (htools : m.ToolsWriteNothing) {e : Failure} (hrun : request.run m = (.error e, m')) :
    m'.disk = m.disk ∨
      ∃ source mode text, m.disk.readSource request.file = .ok source ∧
        (request.newText source m).1 = .ok (mode, text) ∧ m.CutOff m' request.file text e := by
  unfold run at hrun
  cases hsource : m.disk.readSource request.file with
  | error e' =>
    rw [hsource] at hrun
    exact .inl (by rw [(Prod.mk.inj hrun).2])
  | ok source =>
    rw [hsource] at hrun
    dsimp only at hrun
    have hcalm := request.undisturbed_newText htools source
    cases hnew : request.newText source m with
    | mk made m₁ =>
      rw [hnew] at hrun hcalm
      cases made with
      | error e' =>
        refine .inl ?_
        rw [← (Prod.mk.inj hrun).2]
        exact hcalm.disk_eq
      | ok made =>
        obtain ⟨mode, text⟩ := made
        dsimp only at hrun
        cases hsave : m₁.save request.file text with
        | mk result m₂ =>
          cases result with
          | ok _ =>
            rw [hsave] at hrun
            cases hrun
          | error e' =>
            rw [hsave, Prod.mk.injEq, Except.error.injEq] at hrun
            obtain ⟨rfl, rfl⟩ := hrun
            have hcut : m₁.CutOff m₂ request.file text e' :=
              Machine.cutOff_of_save (hcalm.disk_eq ▸ hsource) hsave
            exact .inr ⟨source, mode, text, rfl, by rw [hnew],
              hcalm.limit_eq ▸ hcut.exceeds, hcut.failure_eq, hcalm.limit_eq ▸ hcut.read_eq⟩

/-- **A run that fails without a backup**, be it a removal without force or a formatting run with tools
that write nothing, leaves the whole disk as it was, or it was cut off: it had a new text for its file,
the text has more bytes than the limit, the failure says so, and the file holds the first bytes of the
text, as many as the limit. -/
theorem run_error_cases (m : Machine) :
    (∀ (request : RemovalRequest) (e : Failure) (m' : Machine), request.force = false →
      request.run m = (.error e, m') →
        m'.disk = m.disk ∨
          ∃ source r, m.disk.readSource request.file = .ok source ∧
            removeStructurally request.file source request.package .exact = .changed r ∧
            m.CutOff m' request.file r.code e) ∧
      ∀ (request : Format.FormatRequest) (e : Failure) (m' : Machine), m.ToolsWriteNothing →
        request.run m = (.error e, m') →
          m'.disk = m.disk ∨
            ∃ source mode text, m.disk.readSource request.file = .ok source ∧
              (request.newText source m).1 = .ok (mode, text) ∧ m.CutOff m' request.file text e :=
  ⟨fun _ _ _ hforce hrun => RemovalRequest.run_exact_error hforce hrun,
    fun _ _ _ htools hrun => Format.FormatRequest.run_error htools hrun⟩

namespace Format.Example

/-- A script in a file that cannot grow past two bytes. -/
def cramped : Machine := { Machine.holding "a.js" "import 'x';\nf( );" with limit := some 2 }

/-- A removal without force. -/
def removal : RemovalRequest := { file := "a.js", package := "x" }

/-- The import goes, the text that is left does not fit, and the file holds the first two bytes of it. -/
theorem removal_cutOff :
    cramped.disk.read "a.js" = .ok (encode "import 'x';\nf( );") ∧
      (removal.run cramped).1 = .error (.file "a.js" .tooLarge) ∧
      (removal.run cramped).2.disk.read "a.js" = .ok (encode "f(") := by
  decide +kernel

/-- A formatter that prints more than two bytes cuts the file off too. -/
theorem formatting_cutOff :
    let formatter : Disk.Program := { stdout := encode "f();" }
    let m : Machine := { cramped with disk := { entries := cramped.disk.entries ++
      [(["node_modules"], .directory), (["node_modules", ".bin"], .directory),
        (["node_modules", ".bin", "prettier"], .file [] (some formatter))] } }
    let request : FormatRequest := { file := "a.js" }
    (request.run m).1 = .error (.file "a.js" .tooLarge) ∧
      (request.run m).2.disk.read "a.js" = .ok (encode "f(") := by
  decide +kernel

/-- What is left of the file was cut off the text without the import. -/
theorem removal_cutOff_text :
    removal.force = false ∧
      ∃ r, removeStructurally "a.js" "import 'x';\nf( );" "x" .exact = .changed r ∧
        cramped.CutOff (removal.run cramped).2 "a.js" r.code (.file "a.js" .tooLarge) := by
  have hforce : removal.force = false := rfl
  have hresult : (removal.run cramped).1 = .error (.file "a.js" .tooLarge) := by decide +kernel
  have hsource : cramped.disk.readSource "a.js" = .ok "import 'x';\nf( );" := by decide +kernel
  have hread : (removal.run cramped).2.disk.read "a.js" ≠ cramped.disk.read "a.js" := by
    decide +kernel
  refine ⟨hforce, ?_⟩
  rcases (run_error_cases cramped).1 removal _ (removal.run cramped).2 hforce (by rw [← hresult]) with
    hdisk | ⟨source, r, hsource', hremove, hcut⟩
  · exact absurd (by rw [hdisk]) hread
  · obtain rfl : source = "import 'x';\nf( );" := Except.ok.inj (hsource'.symm.trans hsource)
    exact ⟨r, hremove, hcut⟩

end Format.Example

end PackageRefs
