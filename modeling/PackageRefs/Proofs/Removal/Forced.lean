/-
# A forced removal is all or nothing

A forced removal has four exits: the backup cannot be made, nothing matches, the changed text cannot
be written, and all went well.  In the first three the file is as it was, byte for byte; in the last
it holds the changed text and nothing else.

The third exit is the one that needs an argument, as the write has cut the file off before it fails.
`Backup.Guards` carries it: the backup was written under the limit, so its content fits under it.
-/
import PackageRefs.Proofs.Machine.Backup
import PackageRefs.Proofs.Text.Utf8
import PackageRefs.Removal.File

namespace PackageRefs

open PackageRefs.Disk PackageRefs.Text

namespace RemovalRequest

/-! ## 1. With a backup at hand -/

/-- Putting the backup back and reporting leaves the content in the file. -/
theorem giveUp_of_guards {b : Backup} {content : Bytes} {p q : Place} {m : Machine}
    (h : Backup.Guards b content p q m) (report : Except Failure RemovalOutcome) :
    ∃ m', giveUp b m report = (report, m') ∧ m'.disk.HoldsAt b.file p content ∧
      Backup.Guards b content p q m' := by
  obtain ⟨m', hrestore, hheld, hguards⟩ := h.restore
  exact ⟨m', by simp [giveUp, hrestore], hheld, hguards⟩

/-- **With a backup at hand**, a removal either writes the first change that is found, all of it, or
leaves the content in the file. -/
theorem runGuarded_cases {request : RemovalRequest} (source : String) {b : Backup}
    {content : Bytes} {p q : Place} {m : Machine} (hb : b.file = request.file)
    (h : Backup.Guards b content p q m) :
    ∃ result m', request.runGuarded source b m = (result, m') ∧ Backup.Guards b content p q m' ∧
      ((∃ change, Change.first? request source = some change ∧
          result = .ok (change.outcome source) ∧
          m'.disk.HoldsAt b.file p (encode change.text)) ∨
        ((result = .ok .notFound ∨ ∃ e, result = .error e) ∧
          m'.disk.HoldsAt b.file p content)) := by
  cases hfirst : Change.first? request source with
  | none =>
    obtain ⟨m', hgive, hheld, hguards⟩ := giveUp_of_guards h (.ok .notFound)
    refine ⟨.ok .notFound, m', ?_, hguards, .inr ⟨.inl rfl, hheld⟩⟩
    unfold runGuarded
    rw [hfirst]
    exact hgive
  | some change =>
    obtain ⟨program, hsave⟩ := Machine.save_of_locate change.text h.locate_eq h.ne_directory
    rw [hb] at hsave
    have hwritten := h.written (encode change.text) program
    rcases hsave with ⟨hexceeds, hsave⟩ | ⟨hfits, hsave⟩
    · -- the write failed half way
      obtain ⟨m', hgive, hheld, hguards⟩ :=
        giveUp_of_guards hwritten (.error (.file request.file .tooLarge))
      refine ⟨.error (.file request.file .tooLarge), m', ?_, hguards, .inr ⟨.inr ⟨_, rfl⟩, hheld⟩⟩
      unfold runGuarded
      simp only [hfirst, hsave, hgive]
    · have hheld := Machine.holdsAt_written (encode change.text) program h.locate_eq
        h.ne_directory
      rw [Disk.fitting_of_not_exceeds hfits] at hheld
      refine ⟨.ok (change.outcome source), _, ?_, hwritten, .inl ⟨change, rfl, rfl, hheld⟩⟩
      unfold runGuarded
      simp only [hfirst, hsave]

/-! ## 2. Whole runs -/

theorem run_eq_runForced {request : RemovalRequest} (hforce : request.force = true) {m : Machine}
    {source : String} (hsource : m.disk.readSource request.file = .ok source) :
    request.run m = request.runForced source m := by
  unfold run
  rw [hsource]
  exact if_pos hforce

theorem run_eq_runExact {request : RemovalRequest} (hforce : request.force = false) {m : Machine}
    {source : String} (hsource : m.disk.readSource request.file = .ok source) :
    request.run m = request.runExact source m := by
  unfold run
  rw [hsource]
  exact if_neg (by simp [hforce])

/-- A file that cannot be read is left alone, and so is everything else. -/
theorem run_of_readSource_error {request : RemovalRequest} {m : Machine} {e : Failure}
    (hsource : m.disk.readSource request.file = .error e) : request.run m = (.error e, m) := by
  unfold run
  rw [hsource]

/-- What a forced removal can do to its file. -/
theorem runForced_cases (request : RemovalRequest) (source : String) (m : Machine) :
    ∃ result m', request.runForced source m = (result, m') ∧
      ((∃ change, Change.first? request source = some change ∧
          result = .ok (change.outcome source) ∧
          m'.disk.read request.file = .ok (encode change.text)) ∨
        ((result = .ok .notFound ∨ ∃ e, result = .error e) ∧
          m'.disk.read request.file = m.disk.read request.file)) := by
  rcases Backup.create_cases m request.file with ⟨e, m', hcreate, hread⟩ |
    ⟨b, m₁, content, p, q, hcreate, hb, hread, hheld, hguards⟩
  · exact ⟨.error e, m', by simp [runForced, hcreate], .inr ⟨.inr ⟨e, rfl⟩, hread⟩⟩
  · obtain ⟨result, m₂, hrun, hguards₂, hcases⟩ := runGuarded_cases source hb hguards
    refine ⟨result, b.drop m₂, by simp [runForced, hcreate, hrun], ?_⟩
    rw [hread, ← hb]
    rcases hcases with ⟨change, hfirst, hresult, hheld₂⟩ | ⟨hresult, hheld₂⟩
    · exact .inl ⟨change, hfirst, hresult, (hguards₂.drop hheld₂).read_eq⟩
    · exact .inr ⟨hresult, (hguards₂.drop hheld₂).read_eq⟩

/-- **A forced removal is all or nothing.**  For every machine -- every tree of files, whatever the
file holds, every limit for the growth of files -- the file afterwards

* holds the changed text, all of it, and the outcome tells its size and the size before, or
* reads as it did before, and the outcome is that nothing was found, or an error.

Whenever a backup was made and a text could not be saved, putting the backup back works and gives the
file its bytes again. -/
theorem run_force_all_or_nothing (request : RemovalRequest) (hforce : request.force = true)
    (m : Machine) :
    ((∃ content source change, m.disk.read request.file = .ok content ∧
        decode? content = some source ∧ Change.first? request source = some change ∧
        (request.run m).1 = .ok (.removed change.strategy change.count content.length
          (encode change.text).length) ∧
        (request.run m).2.disk.read request.file = .ok (encode change.text)) ∨
      (((request.run m).1 = .ok .notFound ∨ ∃ e, (request.run m).1 = .error e) ∧
        (request.run m).2.disk.read request.file = m.disk.read request.file)) ∧
    ∀ backup m₁ text e m₂, Backup.create m request.file = (.ok backup, m₁) →
      m₁.save request.file text = (.error e, m₂) →
      ∃ m₃, backup.restore m₂ = (.ok (), m₃) ∧
        m₃.disk.read request.file = m.disk.read request.file := by
  constructor
  · cases hsource : m.disk.readSource request.file with
    | error e =>
      have hrun : request.run m = (.error e, m) := by
        unfold run
        rw [hsource]
      exact .inr ⟨.inr ⟨e, by rw [hrun]⟩, by rw [hrun]⟩
    | ok source =>
      obtain ⟨content, hread, hdecode⟩ := Disk.readSource_eq_ok_iff.mp hsource
      obtain ⟨result, m', hforced, hcases⟩ := runForced_cases request source m
      rw [run_eq_runForced hforce hsource, hforced]
      rcases hcases with ⟨change, hfirst, rfl, hwritten⟩ | h
      · refine .inl ⟨content, source, change, hread, hdecode, hfirst, ?_, hwritten⟩
        rw [Change.outcome, length_encode, ← encode_of_decode? hdecode, length_encode]
      · exact .inr h
  · intro backup m₁ text e m₂ hcreate hsave
    rcases Backup.create_cases m request.file with ⟨e', m', hcreate', -⟩ |
      ⟨b, m', content, p, q, hcreate', hb, hread, -, hguards⟩
    · simp [hcreate'] at hcreate
    · simp only [hcreate', Prod.mk.injEq, Except.ok.injEq] at hcreate
      obtain ⟨rfl, rfl⟩ := hcreate
      obtain ⟨program, hsaved⟩ := Machine.save_of_locate text hguards.locate_eq hguards.ne_directory
      rw [hb, hsave] at hsaved
      obtain rfl : m₂ = m'.written p (encode text) program := by
        rcases hsaved with ⟨-, hsaved⟩ | ⟨-, hsaved⟩ <;> exact (Prod.mk.inj hsaved).2
      obtain ⟨m₃, hrestore, hheld, -⟩ := (hguards.written (encode text) program).restore
      exact ⟨m₃, hrestore, by rw [← hb, hheld.read_eq, hb, hread]⟩

/-! ## 3. A write that stops half way -/

namespace Example

/-- A disk on which a script that cannot be read has just enough room. -/
def tight : Machine :=
  { Machine.holding "a.js" "import 'm';\n\x7d\x7d\x7d" with limit := some 15 }

/-- The import is put into a comment, which makes the text too long for the limit. -/
def outOfRoom : RemovalRequest := { file := "a.js", package := "m", force := true }

/-- The write cuts the file off and fails, and the file is as it was. -/
theorem outOfRoom_restored :
    outOfRoom.force = true ∧ (outOfRoom.run tight).1 = .error (.file "a.js" .tooLarge) ∧
      (outOfRoom.run tight).2.disk.read "a.js" = tight.disk.read "a.js" := by
  have hresult : (outOfRoom.run tight).1 = .error (.file "a.js" .tooLarge) := by decide +kernel
  refine ⟨rfl, hresult, ?_⟩
  rcases (run_force_all_or_nothing outOfRoom rfl tight).1 with
    ⟨_, _, _, _, _, _, hremoved, _⟩ | ⟨_, hread⟩
  · rw [hresult] at hremoved
    exact absurd hremoved (by simp)
  · exact hread

end Example

end RemovalRequest

end PackageRefs
