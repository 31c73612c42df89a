/-
# A backup can be put back

`Backup.Guards` is what holds from the making of a backup until it is dropped: the file and its copy
are at two places, the copy holds the content, and **the content fits under the limit**.  Nothing
checks the last point.  It holds because the copy was itself written under the limit, and it is why
putting the backup back cannot fail.

* `eq_of_locate_pathAt_eq`: the place of a copy tells the file and the time;
* `create_of_locate`: what is copied when a backup is made;
* `create_cases`: making a backup gives one that guards the file's content, or leaves the file as it
  is;
* `Guards.written`: writing the file keeps the guard, also when the write stops half way;
* `Guards.restore`: a guarded file gets its content back;
* `Guards.drop`: dropping the backup leaves the file alone.
-/
import PackageRefs.Machine.Backup
import PackageRefs.Proofs.Disk.Frame

namespace PackageRefs

open PackageRefs.Disk PackageRefs.Text

/-! ## 1. Saving -/

/-- Results are compared where a run on given files is evaluated. -/
instance decidableEqExcept {ε α : Type} [DecidableEq ε] [DecidableEq α] : DecidableEq (Except ε α)
  | .ok a, .ok b => decidable_of_iff (a = b) (by simp)
  | .error d, .error e => decidable_of_iff (d = e) (by simp)
  | .ok _, .error _ | .error _, .ok _ => isFalse (by simp)

instance Disk.decidableApart (d : Disk) (path file : String) : Decidable (d.Apart path file) :=
  match hp : d.locate path with
  | .error _ => isTrue (by simp [Disk.Apart, hp])
  | .ok p => decidable_of_iff (d.locate file ≠ .ok p) (by simp [Disk.Apart, hp])

namespace Machine

/-- A machine with one script in its working directory. -/
def holding (file source : String) : Machine :=
  { disk := { entries := [([file], .file (encode source) none)] } }

/-- The machine after a write to a place. -/
def written (m : Machine) (p : Place) (bytes : Bytes) (program : Option Program) : Machine :=
  { m with disk := m.disk.set p (.file (Disk.fitting m.limit bytes) program) }

/-- The file at the place holds what fits. -/
theorem holdsAt_written {m : Machine} {file : String} {p : Place} (bytes : Bytes)
    (program : Option Program) (hl : m.disk.locate file = .ok p)
    (hp : m.disk.entry? p ≠ some .directory) :
    (m.written p bytes program).disk.HoldsAt file p (Disk.fitting m.limit bytes) :=
  Disk.holdsAt_set_self hl hp

/-- How writing bytes ends: with a complaint if they do not fit. -/
theorem write_of_locate {m : Machine} {file : String} {p : Place} (bytes : Bytes)
    (hl : m.disk.locate file = .ok p) (hp : m.disk.entry? p ≠ some .directory) :
    ∃ program, m.write file bytes =
      (Disk.complaint m.limit bytes, m.written p bytes program) := by
  obtain ⟨program, hw⟩ := Disk.write_of_locate m.limit bytes hl hp
  exact ⟨program, by simp [write, hw, written]⟩

/-- **Saving a text** writes as much as fits, and says so if that is not all. -/
theorem save_of_locate {m : Machine} {file : String} {p : Place} (text : String)
    (hl : m.disk.locate file = .ok p) (hp : m.disk.entry? p ≠ some .directory) :
    ∃ program,
      (Disk.exceeds m.limit (encode text) = true ∧
        m.save file text =
          (.error (.file file .tooLarge), m.written p (encode text) program)) ∨
      (Disk.exceeds m.limit (encode text) = false ∧
        m.save file text = (.ok (), m.written p (encode text) program)) := by
  obtain ⟨program, hw⟩ := write_of_locate (encode text) hl hp
  refine ⟨program, ?_⟩
  cases he : Disk.exceeds m.limit (encode text) with
  | true => exact .inl ⟨rfl, by simp [save, hw, Disk.complaint, he]⟩
  | false => exact .inr ⟨rfl, by simp [save, hw, Disk.complaint, he]⟩

theorem touchesOnly_save (m : Machine) (file text : String) :
    m.disk.TouchesOnly (m.disk.locate file = .ok ·) (m.save file text).2.disk := by
  have hwrite := Disk.touchesOnly_write m.disk m.limit file (encode text)
  unfold save write
  cases hw : m.disk.write m.limit file (encode text) with
  | mk disk error =>
    rw [hw] at hwrite
    cases error <;> exact hwrite

/-- **A write that went well** leaves all of the bytes where the path leads, and nothing else is touched. -/
theorem of_write_eq_none {m m' : Machine} {path : String} {bytes : Bytes}
    (h : m.write path bytes = (none, m')) :
    m.disk.LeadsToFile path ∧ Disk.exceeds m.limit bytes = false ∧ m'.limit = m.limit ∧
      m.disk.Edited m'.disk path (some bytes) := by
  unfold write at h
  rcases Disk.write_cases m.disk m.limit path bytes with ⟨e, hwrite⟩ | ⟨p, program, hp, hdir, hwrite⟩
  · simp [hwrite] at h
  rw [hwrite] at h
  obtain ⟨hcomplaint, rfl⟩ := Prod.mk.inj h
  have hfits : Disk.exceeds m.limit bytes = false := by
    cases he : Disk.exceeds m.limit bytes with
    | true => simp [Disk.complaint, he] at hcomplaint
    | false => rfl
  refine ⟨⟨p, hp, hdir⟩, hfits, rfl, ?_⟩
  rw [Disk.fitting_of_not_exceeds hfits]
  exact Disk.edited_set bytes program hp hdir

/-- **A copy that went well** is a write of what the source holds. -/
theorem of_copy_eq_none {m m' : Machine} {source target : String}
    (h : m.copy source target = (none, m')) :
    ∃ content, m.disk.read source = .ok content ∧ m.write target content = (none, m') := by
  unfold copy at h
  rcases Disk.copy_cases m.disk m.limit source target with ⟨e, hcopy⟩ | ⟨p, content, hheld, hcopy⟩
  · simp [hcopy] at h
  · rw [hcopy] at h
    exact ⟨content, hheld.read_eq, h⟩

end Machine

/-! ## 2. The guard -/

namespace Backup

theorem toList_time (time : Nat) : (toString time).toList = Nat.toDigits 10 time := by
  rw [Nat.toString_eq_ofList_toDigits, String.toList_ofList]

theorem isDigit_of_mem_time {time : Nat} {c : Char} (h : c ∈ (toString time).toList) :
    c.isDigit = true := by
  rw [toList_time] at h
  exact Nat.isDigit_of_mem_toDigits (by decide) (by decide) h

/-- What is added to a file's path is long, and has no slash in it. -/
theorem ending_long (time : Nat) :
    '/' ∉ (".backup." ++ toString time).toList ∧ 2 < (".backup." ++ toString time).toList.length := by
  rw [String.toList_append]
  constructor
  · rw [List.mem_append, not_or]
    exact ⟨by decide, fun h => absurd (isDigit_of_mem_time h) (by decide)⟩
  · rw [List.length_append]
    exact Nat.lt_of_lt_of_le (by decide : 2 < ".backup.".toList.length) (Nat.le_add_right _ _)

/-- What is added tells the time, and where the path before it ends. -/
theorem ending_inj {last last' : List Char} {time time' : Nat}
    (h : last ++ (".backup." ++ toString time).toList =
      last' ++ (".backup." ++ toString time').toList) : last = last' ∧ time = time' := by
  -- from the end, the digits go up to the first dot
  have hdigits : ∀ (l : List Char) (t : Nat),
      (l ++ (".backup." ++ toString t).toList).reverse.takeWhile (· != '.') =
        (Nat.toDigits 10 t).reverse := by
    intro l t
    have hnodot : ∀ c ∈ (toString t).toList.reverse, (c != '.') = true := by
      intro c hc
      rw [bne_iff_ne]
      rintro rfl
      exact absurd (isDigit_of_mem_time (List.mem_reverse.mp hc)) (by decide)
    rw [String.toList_append, ← List.append_assoc, List.reverse_append,
      List.takeWhile_append_of_pos hnodot, toList_time]
    simp
  have htime : time = time' := by
    have hread := congrArg (fun l => l.reverse.takeWhile (· != '.')) h
    simp only [hdigits, List.reverse_inj] at hread
    have hvalue := congrArg (Nat.ofDigitChars 10 · 0) hread
    simpa [Nat.ofDigitChars_toDigits] using hvalue
  subst htime
  exact ⟨List.append_cancel_right h, rfl⟩

/-- The backup guards the content of its file, which is at `p`, by a copy at `q`. -/
structure Guards (b : Backup) (content : Bytes) (p q : Place) (m : Machine) : Prop where
  locate_eq : m.disk.locate b.file = .ok p
  ne_directory : m.disk.entry? p ≠ some .directory
  copy : m.disk.HoldsAt b.path q content
  apart : p ≠ q
  fits : Disk.exceeds m.limit content = false

/-- Writing to the guarded file keeps the guard. -/
theorem Guards.written {b : Backup} {content : Bytes} {p q : Place} {m : Machine}
    (h : Guards b content p q m) (bytes : Bytes) (program : Option Program) :
    Guards b content p q (m.written p bytes program) where
  locate_eq := (Machine.holdsAt_written bytes program h.locate_eq h.ne_directory).locate_eq
  ne_directory := (Machine.holdsAt_written bytes program h.locate_eq h.ne_directory).ne_directory
  copy := h.copy.set_ne h.ne_directory h.apart.symm
  apart := h.apart
  fits := h.fits

/-- A backup that was made is a copy that went well. -/
theorem of_create_eq_ok {m m' : Machine} {file : String} {b : Backup}
    (h : create m file = (.ok b, m')) :
    b = ⟨file, pathAt file m.clock⟩ ∧ m.copy file (pathAt file m.clock) = (none, m') := by
  unfold create at h
  dsimp only at h
  split at h
  · cases h
  · rename_i hcopy
    obtain ⟨hb, rfl⟩ := Prod.mk.inj h
    exact ⟨(Except.ok.inj hb).symm, hcopy⟩

/-- Where the path of the backup leads to no place for a file, there is no backup and nothing
happens. -/
theorem create_of_not_locate {m : Machine} {file : String}
    (hq : ∀ q, m.disk.locate (pathAt file m.clock) = .ok q → m.disk.entry? q = some .directory) :
    ∃ e, create m file = (.error e, m) := by
  rcases Disk.copy_cases m.disk m.limit file (pathAt file m.clock) with ⟨e, hcopy⟩ |
    ⟨p, content, -, hcopy⟩
  · exact ⟨.file (pathAt file m.clock) e, by simp [create, Machine.copy, hcopy]⟩
  rcases Disk.write_cases m.disk m.limit (pathAt file m.clock) content with ⟨e, hwrite⟩ |
    ⟨q, program, hl, hdir, -⟩
  · exact ⟨.file (pathAt file m.clock) e, by simp [create, Machine.copy, hcopy, hwrite]⟩
  · exact absurd (hq q hl) hdir

/-- Otherwise the content is copied as far as it fits; the backup is made if that is all of it. -/
theorem create_of_locate {m : Machine} {file : String} {p q : Place} {content : Bytes}
    (hfile : m.disk.HoldsAt file p content) (hq : m.disk.locate (pathAt file m.clock) = .ok q)
    (hdir : m.disk.entry? q ≠ some .directory) :
    create m file =
      (if Disk.exceeds m.limit content then .error (.file (pathAt file m.clock) .tooLarge)
        else .ok ⟨file, pathAt file m.clock⟩,
        m.written q content (m.disk.programAt q)) := by
  simp only [create, Machine.copy, Disk.copy_of_holdsAt hfile, Disk.write_eq m.limit content hq hdir,
    Disk.complaint]
  cases Disk.exceeds m.limit content <;> rfl

/-- A backup is made at another place than that of its file. -/
theorem locate_pathAt_ne {d : Disk} {file : String} {time : Nat} {p q : Place}
    (hp : d.locate file = .ok p) (hq : d.locate (pathAt file time) = .ok q) : p ≠ q := by
  obtain ⟨hslash, hlong⟩ := ending_long time
  rw [pathAt, String.append_assoc] at hq
  exact Disk.locate_append_ne hslash hlong hp hq

/-- **Two backups at one place** are of one file, and were made at one time. -/
theorem eq_of_locate_pathAt_eq {d : Disk} {file file' : String} {time time' : Nat} {p p' q : Place}
    (hp : d.locate file = .ok p) (hp' : d.locate file' = .ok p')
    (hq : d.locate (pathAt file time) = .ok q) (hq' : d.locate (pathAt file' time') = .ok q) :
    p = p' ∧ time = time' := by
  obtain ⟨hslash, hlong⟩ := ending_long time
  obtain ⟨hslash', hlong'⟩ := ending_long time'
  rw [pathAt, String.append_assoc] at hq hq'
  obtain ⟨r, last, hlast, rfl⟩ := Disk.exists_parting_of_locate hslash hlong hp hq
  obtain ⟨r', last', hlast', hsame⟩ := Disk.exists_parting_of_locate hslash' hlong' hp' hq'
  obtain ⟨rfl, hname⟩ := List.append_inj' hsame rfl
  obtain ⟨rfl, rfl⟩ := ending_inj (String.ofList_injective (List.cons.inj hname).1)
  exact ⟨Except.ok.inj (hlast.symm.trans hlast'), rfl⟩

/-- A backup that was made guards its file. -/
theorem guards_of_create {m : Machine} {file : String} {p q : Place} {content : Bytes}
    (hfile : m.disk.HoldsAt file p content) (hq : m.disk.locate (pathAt file m.clock) = .ok q)
    (hdir : m.disk.entry? q ≠ some .directory) (hfits : Disk.exceeds m.limit content = false)
    (program : Option Program) :
    Guards ⟨file, pathAt file m.clock⟩ content p q (m.written q content program) := by
  have hne : p ≠ q := locate_pathAt_ne hfile.locate_eq hq
  have hkept : (m.written q content program).disk.HoldsAt file p content := hfile.set_ne hdir hne
  have hcopied := Machine.holdsAt_written content program hq hdir
  rw [Disk.fitting_of_not_exceeds hfits] at hcopied
  exact ⟨hkept.locate_eq, hkept.ne_directory, hcopied, hne, hfits⟩

/-- **Making a backup.**  Either there is none, and the file is as it was; or it guards the content
that the file had, and the file still has it. -/
theorem create_cases (m : Machine) (file : String) :
    (∃ e m', create m file = (.error e, m') ∧ m'.disk.read file = m.disk.read file) ∨
    ∃ b m' content p q, create m file = (.ok b, m') ∧ b.file = file ∧
      m.disk.read file = .ok content ∧ m'.disk.HoldsAt file p content ∧
      Guards b content p q m' := by
  by_cases hplace : ∀ q, m.disk.locate (pathAt file m.clock) = .ok q →
      m.disk.entry? q = some .directory
  · obtain ⟨e, hcreate⟩ := create_of_not_locate hplace
    exact .inl ⟨e, m, hcreate, rfl⟩
  simp only [Classical.not_forall] at hplace
  obtain ⟨q, hq, hdir⟩ := hplace
  rcases Disk.copy_cases m.disk m.limit file (pathAt file m.clock) with ⟨e, hcopy⟩ |
    ⟨p, content, hfile, -⟩
  · exact .inl ⟨.file (pathAt file m.clock) e, m, by simp [create, Machine.copy, hcopy], rfl⟩
  -- the copy was begun: it is beside the file, which is as it was
  have hcreate := create_of_locate hfile hq hdir
  have hkept : (m.written q content (m.disk.programAt q)).disk.HoldsAt file p content :=
    hfile.set_ne hdir (locate_pathAt_ne hfile.locate_eq hq)
  cases he : Disk.exceeds m.limit content with
  | true =>
    rw [he, if_pos rfl] at hcreate
    exact .inl ⟨_, _, hcreate, hkept.read_eq.trans hfile.read_eq.symm⟩
  | false =>
    rw [he, if_neg Bool.false_ne_true] at hcreate
    exact .inr ⟨_, _, content, p, q, hcreate, rfl, hfile.read_eq, hkept,
      guards_of_create hfile hq hdir he _⟩

/-- **Putting a backup back** always works, and the file has its content again. -/
theorem Guards.restore {b : Backup} {content : Bytes} {p q : Place} {m : Machine}
    (h : Guards b content p q m) :
    ∃ m', b.restore m = (.ok (), m') ∧ m'.disk.HoldsAt b.file p content ∧
      Guards b content p q m' := by
  obtain ⟨program, hwrite⟩ := Disk.write_of_locate m.limit content h.locate_eq h.ne_directory
  have hheld := Machine.holdsAt_written content program h.locate_eq h.ne_directory
  rw [Disk.fitting_of_not_exceeds h.fits] at hheld
  refine ⟨m.written p content program, ?_, hheld, h.written content program⟩
  simp only [Backup.restore, Machine.copy, Disk.copy_of_holdsAt h.copy, hwrite, Disk.complaint,
    h.fits]
  rfl

/-- Dropping a backup leaves its file alone. -/
theorem Guards.drop {b : Backup} {content held : Bytes} {p q : Place} {m : Machine}
    (h : Guards b content p q m) (hfile : m.disk.HoldsAt b.file p held) :
    (b.drop m).disk.HoldsAt b.file p held := by
  simp only [Backup.drop, Machine.delete, Disk.remove_of_holdsAt h.copy]
  exact hfile.erase_ne h.copy.ne_directory h.apart

theorem limit_restore (b : Backup) (m : Machine) : (b.restore m).2.limit = m.limit := by
  unfold restore Machine.copy
  cases hc : m.disk.copy m.limit b.path b.file with
  | mk disk error => cases error <;> rfl

theorem touchesOnly_restore (b : Backup) (m : Machine) :
    m.disk.TouchesOnly (m.disk.locate b.file = .ok ·) (b.restore m).2.disk := by
  have hcopy := Disk.touchesOnly_copy m.disk m.limit b.path b.file
  unfold restore Machine.copy
  cases hc : m.disk.copy m.limit b.path b.file with
  | mk disk error =>
    rw [hc] at hcopy
    cases error <;> exact hcopy

end Backup

end PackageRefs
