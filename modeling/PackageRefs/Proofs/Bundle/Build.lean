/-
# Bundling leaves only its output

The entry of a bundle lies in the project for the time of one call.  Three things can fail while it is there:
writing it, the call, and looking at what the call has left.  Each way out passes through the removal of the
entry.

* `writeEntry_of_fits`, `writeEntry_of_not_fits`: the entry is there with all of its text, or nothing has
  come of it.
* `outfile?_bundlerArguments`: the call is told to write the output and nothing else.
* `built_buildBy` puts this together for every way of running programs that is orderly.

The name of the entry has to be new: what is there before the entry is removed with it.
-/
import PackageRefs.Bundle.Build
import PackageRefs.Proofs.Machine.Backup
import PackageRefs.Proofs.Machine.Running

namespace PackageRefs.Bundle

open PackageRefs.Disk PackageRefs.Text

variable {directory : String} {packages : List String} {m : Machine} {p : Place}

/-! ## 1. The entry -/

/-- There is a place for the entry, and its text fits under the limit. -/
structure EntryFits (directory : String) (packages : List String) (m : Machine) : Prop where
  exists_place : ∃ p, m.disk.locate (entryPath m directory) = .ok p
  fits : Disk.exceeds m.limit (encode (entrySource packages)) = false

/-- Where there is a place for the entry, its text is written as far as it fits; what does not fit is a
failure, and the entry is deleted. -/
theorem writeEntry_of_locate (packages : List String) (hp : m.disk.locate (entryPath m directory) = .ok p)
    (hdir : m.disk.entry? p ≠ some .directory) :
    ∃ m₁, m.WritesOnly (· = p) m₁ ∧
      m₁.disk.HoldsAt (entryPath m directory) p (Disk.fitting m.limit (encode (entrySource packages))) ∧
      writeEntry directory packages m =
        if Disk.exceeds m.limit (encode (entrySource packages)) then
          (.error (.file (entryPath m directory) (FileError.tooLarge.at (entryPath m directory))),
            m₁.delete (entryPath m directory))
        else (.ok (entryPath m directory), m₁) := by
  obtain ⟨program, hcreate⟩ := Machine.write_of_locate [] hp hdir
  have hempty := Machine.holdsAt_written [] program hp hdir
  have hnone : Disk.complaint m.limit [] = none := by cases m.limit <;> rfl
  rw [hnone] at hcreate
  obtain ⟨program', hwrite⟩ := Machine.write_of_locate (encode (entrySource packages))
    hempty.locate_eq hempty.ne_directory
  have hheld := Machine.holdsAt_written (encode (entrySource packages)) program' hempty.locate_eq
    hempty.ne_directory
  have hcreated : m.disk.TouchesOnly (· = p) (m.written p [] program).disk :=
    Disk.touchesOnly_set rfl hdir
  refine ⟨(m.written p [] program).written p (encode (entrySource packages)) program',
    ⟨rfl, ?_⟩, hheld, ?_⟩
  · exact hcreated.trans (Disk.touchesOnly_set rfl hempty.ne_directory)
  · have hlimit : (m.written p [] program).limit = m.limit := rfl
    unfold writeEntry
    simp only [hcreate, hwrite, hlimit, Disk.complaint]
    cases Disk.exceeds m.limit (encode (entrySource packages)) <;> rfl

/-- An entry that fits is there, with all of its text. -/
theorem writeEntry_of_fits (hfresh : m.disk.exists? (entryPath m directory) = false)
    (hfits : EntryFits directory packages m) :
    ∃ p m₁, m.disk.locate (entryPath m directory) = .ok p ∧ m.disk.entry? p = none ∧
      m.WritesOnly (· = p) m₁ ∧
      m₁.disk.HoldsAt (entryPath m directory) p (encode (entrySource packages)) ∧
      writeEntry directory packages m = (.ok (entryPath m directory), m₁) := by
  obtain ⟨⟨p, hp⟩, hlimit⟩ := hfits
  have hfree := (Disk.exists?_eq_false_iff hp).mp hfresh
  obtain ⟨m₁, hwrites, hheld, hwrite⟩ := writeEntry_of_locate packages hp (by simp [hfree])
  rw [Disk.fitting_of_not_exceeds hlimit] at hheld
  rw [hlimit, if_neg Bool.false_ne_true] at hwrite
  exact ⟨p, m₁, hp, hfree, hwrites, hheld, hwrite⟩

/-- An entry that does not fit leaves nothing behind. -/
theorem writeEntry_of_not_fits (hfresh : m.disk.exists? (entryPath m directory) = false)
    (hfits : ¬EntryFits directory packages m) :
    ∃ e m₁, writeEntry directory packages m = (.error e, m₁) ∧ m.WritesOnly (fun _ => False) m₁ := by
  cases hl : m.disk.locate (entryPath m directory) with
  | error e =>
    have hwrite : m.write (entryPath m directory) [] = (some e, m) := by
      simp [Machine.write, Disk.write, hl]
    refine ⟨.file directory (e.at (entryPath m directory)), m, ?_, .refl _ m⟩
    unfold writeEntry
    simp only [hwrite]
  | ok p =>
    have hexceeds : Disk.exceeds m.limit (encode (entrySource packages)) = true := by
      cases hlimit : Disk.exceeds m.limit (encode (entrySource packages)) with
      | true => rfl
      | false => exact absurd ⟨⟨p, hl⟩, hlimit⟩ hfits
    have hfree := (Disk.exists?_eq_false_iff hl).mp hfresh
    obtain ⟨m₁, hwrites, -, hwrite⟩ := writeEntry_of_locate packages hl (by simp [hfree])
    rw [hexceeds, if_pos rfl] at hwrite
    obtain ⟨hremoved, -⟩ := hwrites.touchesOnly.removed hl hfree
    refine ⟨_, _, hwrite, ?_, ?_⟩
    · rw [Machine.delete_calls]
      exact hwrites.calls_eq
    · rw [Machine.delete_disk]
      exact hremoved.mono fun _ hq => hq.2 hq.1

/-! ## 2. The call -/

theorem isAbsolute_join_of_isAbsolute {base : String} (h : isAbsolute base = true) (path : String) :
    isAbsolute (join base path) = true := by
  obtain ⟨c, r, hbase⟩ : ∃ c r, base.toList = c :: r := by
    cases hlist : base.toList with
    | nil => simp [isAbsolute, hlist] at h
    | cons c r => exact ⟨c, r, rfl⟩
  unfold join
  split
  · rename_i hreplaced
    have hne : base.isEmpty = false := by
      rw [← Bool.not_eq_true, String.isEmpty_iff, ← String.toList_eq_nil_iff, hbase]
      simp
    simpa [hne] using hreplaced
  · split <;> simpa [isAbsolute, hbase] using h

/-- The path of an entry leads from the top. -/
theorem isAbsolute_entryPath (m : Machine) (directory : String) :
    isAbsolute (entryPath m directory) = true := by
  have htop : isAbsolute m.workingPath = true := by simp [isAbsolute, Machine.workingPath, pathFromTop]
  exact isAbsolute_join_of_isAbsolute (isAbsolute_join_of_isAbsolute htop directory) _

/-- **The bundler is told to write the output.**  The arguments before the one that says so do not look like
it; of the entry's path this is known because it leads from the top. -/
theorem outfile?_bundlerArguments {entry : String} (hentry : isAbsolute entry = true) (out : String)
    (minify : Bool) : outfile? (bundlerArguments entry out minify) = some out := by
  have hmark : outfileMark.toList.isPrefixOf entry.toList = false := by
    cases hlist : entry.toList with
    | nil => rfl
    | cons c r =>
      have hc : c = '/' := by simpa [isAbsolute, hlist] using hentry
      subst hc
      rfl
  have hout : outfileMark.toList.isPrefixOf (outfileMark ++ out).toList = true := by
    rw [String.toList_append]
    exact List.isPrefixOf_iff_prefix.mpr (List.prefix_append ..)
  have hbundle : outfileMark.toList.isPrefixOf "--bundle".toList = false := by decide
  have hplatform : outfileMark.toList.isPrefixOf "--platform=browser".toList = false := by decide
  have hformat : outfileMark.toList.isPrefixOf "--format=iife".toList = false := by decide
  have hname : outfileMark.toList.isPrefixOf ("--global-name=" ++ globalName).toList = false := by
    decide
  have hrest : (outfileMark ++ out).toList.drop outfileMark.length = out.toList := by
    rw [String.toList_append, ← String.length_toList, List.drop_left]
  unfold outfile? bundlerArguments
  simp only [List.cons_append, List.find?_cons, hmark, hbundle, hplatform, hformat, hname, hout,
    Option.map_some, hrest, String.ofList_toList]

/-! ## 3. The bundle -/

variable {run : Running} {request : BundleRequest} {binary : String}

/-- The call that is made when the entry is in place. -/
def bundlerCommand (request : BundleRequest) (binary directory : String) (m : Machine) : Command :=
  ⟨binary, bundlerArguments (entryPath m directory) request.out request.minify⟩

/-- What building a bundle of some packages does: the calls that were made, what is on the disk, and what the
result says. -/
structure Built (run : Running) (request : BundleRequest) (binary directory : String) (m : Machine)
    (result : Except Failure BundleOutcome) (m' : Machine) : Prop where
  /-- An entry that fits is there, with its text, at the time of the only call. -/
  calls_of_fits : EntryFits directory request.packages m →
    ∃ call, m'.calls = call :: m.calls ∧ call.command = bundlerCommand request binary directory m ∧
      call.command.arguments.head? = some (entryPath m directory) ∧
      call.disk.read (entryPath m directory) = .ok (encode (entrySource request.packages))
  calls_of_not_fits : ¬EntryFits directory request.packages m → m'.calls = m.calls
  entry_gone : m'.disk.exists? (entryPath m directory) = false
  sameAt (path : String) : m.disk.Apart path request.out → m.disk.SameAt m'.disk path
  isOk_iff : (∃ outcome, result = .ok outcome) ↔
    EntryFits directory request.packages m ∧
      (∃ output, (run (writeEntry directory request.packages m).2
          (bundlerCommand request binary directory m)).1 = .ok output ∧ output.code = 0) ∧
      m'.disk.exists? request.out = true
  outcome_eq (outcome : BundleOutcome) : result = .ok outcome →
    outcome.out = request.out ∧ outcome.minified = request.minify ∧
      ∀ content, m'.disk.read request.out = .ok content → outcome.bytes = content.length

/-- What is reported after a call, when the entry is gone. -/
def reported (request : BundleRequest) (binary : String) (answer : Except FileError Output)
    (m : Machine) : Except Failure BundleOutcome :=
  match answer with
  | .error e => .error (startFailure binary e)
  | .ok output =>
    if output.succeeded then outcomeOf request m else .error (complaintFailure output)

/-- With the entry in place there is the call, and then the entry goes whatever comes of it. -/
theorem buildBy_of_written {m₁ m₂ : Machine} {answer : Except FileError Output}
    (hpackages : request.packages ≠ [])
    (hwrite : writeEntry directory request.packages m = (.ok (entryPath m directory), m₁))
    (hcall : run m₁ (bundlerCommand request binary directory m) = (answer, m₂)) :
    buildBy run request binary directory m =
      (reported request binary answer (m₂.delete (entryPath m directory)),
        m₂.delete (entryPath m directory)) := by
  unfold bundlerCommand at hcall
  unfold buildBy callBundler reported
  rw [if_neg (by simpa using hpackages), hwrite]
  dsimp only
  rw [hcall]
  cases answer with
  | error e => rfl
  | ok output => cases h : output.succeeded <;> simp [h]

/-- **A success is reported** exactly after a call that exited with 0, if the output is there. -/
theorem reported_isOk_iff {answer : Except FileError Output} :
    (∃ outcome, reported request binary answer m = .ok outcome) ↔
      (∃ output, answer = .ok output ∧ output.code = 0) ∧ m.disk.exists? request.out = true := by
  have houtcome : (∃ outcome, outcomeOf request m = .ok outcome) ↔
      m.disk.exists? request.out = true := by
    unfold outcomeOf sizeAt Disk.exists?
    cases m.disk.lookup request.out with
    | error e => simp
    | ok e => cases e <;> simp
  cases answer with
  | error e => simp [reported]
  | ok output =>
    by_cases hcode : output.code = 0
    · simp [reported, Output.succeeded, hcode, houtcome]
    · simp [reported, Output.succeeded, hcode]

/-- The size that is reported is that of the file. -/
theorem reported_eq_ok {answer : Except FileError Output} {outcome : BundleOutcome}
    (h : reported request binary answer m = .ok outcome) :
    outcome.out = request.out ∧ outcome.minified = request.minify ∧
      ∀ content, m.disk.read request.out = .ok content → outcome.bytes = content.length := by
  have houtcome : outcomeOf request m = .ok outcome := by
    unfold reported at h
    split at h
    · cases h
    · split at h
      · exact h
      · cases h
  unfold outcomeOf at houtcome
  split at houtcome
  · rename_i bytes hsize
    obtain rfl := Except.ok.inj houtcome
    refine ⟨rfl, rfl, fun content hread => ?_⟩
    obtain ⟨p, hp, program, hentry⟩ := Disk.exists_holdsAt_of_read hread
    have hlookup : m.disk.lookup request.out = .ok (.file content program) :=
      Disk.lookup_eq_ok_iff.mpr ⟨p, hp, hentry⟩
    rw [sizeAt, hlookup] at hsize
    exact (Except.ok.inj hsize).symm
  · cases houtcome

/-- Without a place or room for the entry there is no call. -/
theorem built_of_not_fits (hpackages : request.packages ≠ [])
    (hfresh : m.disk.exists? (entryPath m directory) = false)
    (hfits : ¬EntryFits directory request.packages m) :
    Built run request binary directory m (buildBy run request binary directory m).1
      (buildBy run request binary directory m).2 := by
  obtain ⟨e, m₁, hwrite, hwrites⟩ := writeEntry_of_not_fits hfresh hfits
  have hbuild : buildBy run request binary directory m = (.error e, m₁) := by
    unfold buildBy
    rw [if_neg (by simpa using hpackages), hwrite]
  have hsame (path : String) : m.disk.SameAt m₁.disk path :=
    hwrites.touchesOnly.sameAt fun _ _ hfalse => hfalse
  rw [hbuild]
  refine ⟨fun h => absurd h hfits, fun _ => hwrites.calls_eq, ?_, fun path _ => hsame path, ?_, ?_⟩
  · rw [(hsame _).exists?_eq, hfresh]
  · constructor
    · rintro ⟨_, h⟩
      cases h
    · rintro ⟨h, -⟩
      exact absurd h hfits
  · rintro outcome h
    cases h

/-- **With the entry in place** the bundler is called, and then the entry goes. -/
theorem built_of_fits (hrun : run.Orderly) (hpackages : request.packages ≠ [])
    (hfresh : m.disk.exists? (entryPath m directory) = false)
    (hfits : EntryFits directory request.packages m) :
    Built run request binary directory m (buildBy run request binary directory m).1
      (buildBy run request binary directory m).2 := by
  obtain ⟨p, m₁, hp, hfree, hwrites, hheld, hwrite⟩ := writeEntry_of_fits hfresh hfits
  have hout : outfile? (bundlerCommand request binary directory m).arguments = some request.out :=
    outfile?_bundlerArguments (isAbsolute_entryPath m directory) _ _
  have hcalls := hrun.calls_eq m₁ (bundlerCommand request binary directory m)
  have htouch := hrun.touchesOnly m₁ (bundlerCommand request binary directory m)
  cases hcall : run m₁ (bundlerCommand request binary directory m) with
  | mk answer m₂ =>
  rw [hcall] at hcalls htouch
  rw [buildBy_of_written hpackages hwrite hcall]
  -- the entry's place is as it was, and beside it only that of the output was touched
  have hboth : m.disk.TouchesOnly (fun q => m.disk.locate request.out = .ok q ∨ q = p) m₂.disk := by
    refine (hwrites.touchesOnly.mono fun q hq => .inr hq).trans (htouch.mono ?_)
    rintro q ⟨path, hpath, hq⟩
    obtain rfl : path = request.out := Option.some.inj (hpath.symm.trans hout)
    exact .inl (hwrites.touchesOnly.locate_eq_ok_iff.mp hq)
  obtain ⟨hremoved, hgone⟩ := hboth.removed hp hfree
  have hspared : m.disk.TouchesOnly (m.disk.locate request.out = .ok ·)
      (m₂.delete (entryPath m directory)).disk := by
    rw [Machine.delete_disk]
    exact hremoved.mono fun _ hq => hq.1.resolve_right hq.2
  constructor
  case calls_of_fits =>
    intro _
    refine ⟨⟨bundlerCommand request binary directory m, m₁.disk⟩, ?_, rfl, rfl, hheld.read_eq⟩
    rw [Machine.delete_calls, ← hwrites.calls_eq]
    exact hcalls
  case calls_of_not_fits => exact fun h => absurd hfits h
  case entry_gone =>
    rw [Disk.exists?_eq_false_iff (hspared.locate_eq_ok_iff.mpr hp), Machine.delete_disk]
    exact hgone
  case sameAt => exact fun path hapart => hspared.sameAt hapart
  case isOk_iff =>
    rw [reported_isOk_iff, hwrite, hcall]
    exact (and_iff_right hfits).symm
  case outcome_eq => exact fun outcome h => reported_eq_ok h

/-- **Bundling leaves only its output.**  For every way of running programs that is orderly, every request and
every machine on which the name of the entry is new:

* without packages there is a failure, and the machine stays the same;
* with packages there is one call if the entry can be written, which then is there with its text, and no call
  otherwise; the entry is gone afterwards; every path but that of the output finds what it found; and the
  result is a success exactly if the call exited with 0 and the output is there, with the size of its file. -/
theorem built_buildBy (hrun : run.Orderly) (request : BundleRequest) (binary directory : String)
    (m : Machine) (hfresh : m.disk.exists? (entryPath m directory) = false) :
    (request.packages = [] → ∃ e, buildBy run request binary directory m = (.error e, m)) ∧
      (request.packages ≠ [] →
        Built run request binary directory m (buildBy run request binary directory m).1
          (buildBy run request binary directory m).2) := by
  constructor
  · intro hpackages
    refine ⟨.bundle "no packages to bundle", ?_⟩
    unfold buildBy
    rw [hpackages]
    rfl
  · intro hpackages
    by_cases hfits : EntryFits directory request.packages m
    · exact built_of_fits hrun hpackages hfresh hfits
    · exact built_of_not_fits hpackages hfresh hfits

namespace Example

/-- A bundler that writes its output and complains all the same. -/
def grumbling : Machine :=
  { runner := .prepared [.runs ⟨1, [], encode "no such package"⟩ (some [1, 2])] }

/-- A bundle of one package. -/
def small : BundleRequest := { packages := ["m"] }

/-- The output stays, the entry goes, and the complaint is reported. -/
theorem grumbling_built :
    Running.Orderly Machine.run ∧ grumbling.disk.exists? (entryPath grumbling ".") = false ∧
      small.packages ≠ [] ∧
      (buildBy Machine.run small "esbuild" "." grumbling).1 = .error (.bundle "no such package") ∧
      (buildBy Machine.run small "esbuild" "." grumbling).2.disk.read "bundle.js" = .ok [1, 2] ∧
      Built Machine.run small "esbuild" "." grumbling
        (buildBy Machine.run small "esbuild" "." grumbling).1
        (buildBy Machine.run small "esbuild" "." grumbling).2 := by
  have hfresh : grumbling.disk.exists? (entryPath grumbling ".") = false := by decide +kernel
  have hpackages : small.packages ≠ [] := by decide
  exact ⟨Machine.orderly_run, hfresh, hpackages, by decide +kernel, by decide +kernel,
    (built_buildBy Machine.orderly_run small "esbuild" "." grumbling hfresh).2 hpackages⟩

end Example

end PackageRefs.Bundle
