/-
# One file: reading, writing, copying, deleting

`HoldsAt disk path p content` says that the path leads to the place `p` and that a file with the
content is there.  Reading, writing and deleting are each described once in these terms; later
modules do not look into them again.

A write either changes nothing, or sets the one place that the path leads to, which was no
directory (`write_cases`).  It is complete exactly if the bytes do not exceed the limit.
-/
import PackageRefs.Machine.Basic
import PackageRefs.Proofs.Disk.Place

namespace PackageRefs.Disk

open PackageRefs.Text

/-! ## 1. Reading -/

/-- The path leads to a place where a file with the content is. -/
structure HoldsAt (d : Disk) (path : String) (p : Place) (content : Bytes) : Prop where
  locate_eq : d.locate path = .ok p
  entry?_eq : ∃ program, d.entry? p = some (.file content program)

theorem HoldsAt.ne_directory {d : Disk} {path : String} {p : Place} {content : Bytes}
    (h : d.HoldsAt path p content) : d.entry? p ≠ some .directory := by
  obtain ⟨program, hp⟩ := h.entry?_eq
  simp [hp]

theorem HoldsAt.read_eq {d : Disk} {path : String} {p : Place} {content : Bytes}
    (h : d.HoldsAt path p content) : d.read path = .ok content := by
  obtain ⟨program, hp⟩ := h.entry?_eq
  simp [read, lookup, h.locate_eq, hp]

theorem exists_holdsAt_of_read {d : Disk} {path : String} {content : Bytes}
    (h : d.read path = .ok content) : ∃ p, d.HoldsAt path p content := by
  simp only [read, lookup] at h
  cases hl : d.locate path with
  | error e => simp [hl] at h
  | ok p =>
    cases he : d.entry? p with
    | none => simp [hl, he] at h
    | some e =>
      cases e with
      | directory => simp [hl, he] at h
      | file c program =>
        simp only [hl, he, Except.ok.injEq] at h
        exact ⟨p, hl, program, h ▸ he⟩

/-- A file stays as it is when directories stay and its place is not touched. -/
theorem HoldsAt.of_keepsDirectories {d d' : Disk} {path : String} {p : Place} {content : Bytes}
    (h : d.HoldsAt path p content) (hd : KeepsDirectories d d')
    (hp : d'.entry? p = d.entry? p) : d'.HoldsAt path p content :=
  ⟨locate_of_keepsDirectories hd h.locate_eq, hp ▸ h.entry?_eq⟩

theorem HoldsAt.set_ne {d : Disk} {path : String} {p q : Place} {content : Bytes} {e : Entry}
    (h : d.HoldsAt path p content) (hq : d.entry? q ≠ some .directory) (hne : p ≠ q) :
    (d.set q e).HoldsAt path p content :=
  h.of_keepsDirectories (keepsDirectories_set hq) (entry?_set_ne hne)

theorem HoldsAt.erase_ne {d : Disk} {path : String} {p q : Place} {content : Bytes}
    (h : d.HoldsAt path p content) (hq : d.entry? q ≠ some .directory) (hne : p ≠ q) :
    (d.erase q).HoldsAt path p content :=
  h.of_keepsDirectories (keepsDirectories_erase hq) (entry?_erase_ne hne)

theorem holdsAt_set_self {d : Disk} {path : String} {p : Place} {content : Bytes}
    {program : Option Program} (hl : d.locate path = .ok p)
    (hp : d.entry? p ≠ some .directory) :
    (d.set p (.file content program)).HoldsAt path p content :=
  ⟨locate_of_keepsDirectories (keepsDirectories_set hp) hl, program, entry?_set_self d p _⟩

theorem readText_eq_ok_iff {d : Disk} {path text : String} :
    d.readText path = .ok text ↔ ∃ content, d.read path = .ok content ∧ decode? content = some text := by
  simp only [readText]
  cases d.read path with
  | error e => simp
  | ok content => cases hd : decode? content <;> simp [hd]

/-- A source file is read exactly if it holds a text. -/
theorem readSource_eq_ok_iff {d : Disk} {path text : String} :
    d.readSource path = .ok text ↔
      ∃ content, d.read path = .ok content ∧ decode? content = some text := by
  rw [← readText_eq_ok_iff, readSource]
  split
  · cases d.readText path <;> simp
  · rename_i hex
    constructor
    · simp
    · intro h
      obtain ⟨content, hread, -⟩ := readText_eq_ok_iff.mp h
      obtain ⟨p, hl, program, hp⟩ := exists_holdsAt_of_read hread
      simp [exists?, lookup, hl, hp] at hex

/-! ## 2. Writing -/

/-- What of the bytes is written under a limit. -/
def fitting (limit : Option Nat) (bytes : Bytes) : Bytes :=
  match limit with
  | some n => bytes.take n
  | none => bytes

theorem fitting_of_not_exceeds {limit : Option Nat} {bytes : Bytes}
    (h : exceeds limit bytes = false) : fitting limit bytes = bytes := by
  cases limit with
  | none => rfl
  | some n =>
    simp only [exceeds, Option.any_some, decide_eq_false_iff_not, Nat.not_lt] at h
    exact List.take_of_length_le h

/-- What a write says: a complaint if not all of the bytes fit. -/
def complaint (limit : Option Nat) (bytes : Bytes) : Option FileError :=
  if exceeds limit bytes then some .tooLarge else none

/-- What a place says when it is run, if it is a program; a write leaves that alone. -/
def programAt (d : Disk) (p : Place) : Option Program :=
  match d.entry? p with
  | some (.file _ program) => program
  | _ => none

theorem write_eq {d : Disk} {path : String} {p : Place} (limit : Option Nat) (bytes : Bytes)
    (hl : d.locate path = .ok p) (hp : d.entry? p ≠ some .directory) :
    d.write limit path bytes =
      (d.set p (.file (fitting limit bytes) (d.programAt p)), complaint limit bytes) := by
  simp only [write, hl, programAt]
  cases he : d.entry? p with
  | none => rfl
  | some e =>
    cases e with
    | directory => exact absurd he hp
    | file content program => rfl

theorem write_of_locate {d : Disk} {path : String} {p : Place} (limit : Option Nat)
    (bytes : Bytes) (hl : d.locate path = .ok p) (hp : d.entry? p ≠ some .directory) :
    ∃ program, d.write limit path bytes =
      (d.set p (.file (fitting limit bytes) program), complaint limit bytes) :=
  ⟨_, write_eq limit bytes hl hp⟩

/-- **What a write can do**: nothing, with a complaint, or set the place of the path to as much as
fits. -/
theorem write_cases (d : Disk) (limit : Option Nat) (path : String) (bytes : Bytes) :
    (∃ e, d.write limit path bytes = (d, some e)) ∨
    ∃ p program, d.locate path = .ok p ∧ d.entry? p ≠ some .directory ∧
      d.write limit path bytes =
        (d.set p (.file (fitting limit bytes) program), complaint limit bytes) := by
  cases hl : d.locate path with
  | error e => exact .inl ⟨e, by simp [write, hl]⟩
  | ok p =>
    by_cases hp : d.entry? p = some .directory
    · exact .inl ⟨.isDirectory, by simp [write, hl, hp]⟩
    · obtain ⟨program, hw⟩ := write_of_locate limit bytes hl hp
      exact .inr ⟨p, program, rfl, hp, hw⟩

/-- A copy of a file is a write of its content. -/
theorem copy_of_holdsAt {d : Disk} {source : String} {p : Place} {content : Bytes}
    (h : d.HoldsAt source p content) (limit : Option Nat) (target : String) :
    d.copy limit source target = d.write limit target content := by
  obtain ⟨program, hp⟩ := h.entry?_eq
  simp [copy, lookup, h.locate_eq, hp]

/-- Nothing else than a file is copied. -/
theorem copy_cases (d : Disk) (limit : Option Nat) (source target : String) :
    (∃ e, d.copy limit source target = (d, some e)) ∨
    ∃ p content, d.HoldsAt source p content ∧
      d.copy limit source target = d.write limit target content := by
  cases hr : d.read source with
  | ok content =>
    obtain ⟨p, hp⟩ := exists_holdsAt_of_read hr
    exact .inr ⟨p, content, hp, copy_of_holdsAt hp limit target⟩
  | error e =>
    left
    simp only [read] at hr
    cases hl : d.lookup source with
    | error e' => exact ⟨e', by simp [copy, hl]⟩
    | ok entry =>
      cases entry with
      | directory => exact ⟨.notRegular, by simp [copy, hl]⟩
      | file content program => simp [hl] at hr

/-! ## 3. Deleting -/

theorem remove_of_holdsAt {d : Disk} {path : String} {p : Place} {content : Bytes}
    (h : d.HoldsAt path p content) : d.remove path = d.erase p := by
  obtain ⟨program, hp⟩ := h.entry?_eq
  simp [remove, h.locate_eq, hp]

end PackageRefs.Disk
