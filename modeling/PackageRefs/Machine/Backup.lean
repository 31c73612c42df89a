/-
# Backups

A backup is a copy of a file beside it, under the file's name with the time behind it.  It can be put
back any number of times, and goes when it is dropped.
-/
import PackageRefs.Machine.Basic

namespace PackageRefs

open PackageRefs.Disk

/-- A copy of a file. -/
structure Backup where
  file : String
  /-- the path of the copy -/
  path : String
  deriving DecidableEq, Inhabited, Repr

namespace Backup

/-- The path of a file's backup at a time. -/
def pathAt (file : String) (time : Nat) : String :=
  file ++ ".backup." ++ toString time

/-- Copies a file; a copy that fails half way stays. -/
def create (m : Machine) (file : String) : Result Backup :=
  let path := pathAt file m.clock
  match m.copy file path with
  | (some e, m) => (.error (.file path e), m)
  | (none, m) => (.ok ⟨file, path⟩, m)

/-- Puts the copy back in the place of the file. -/
def restore (b : Backup) (m : Machine) : Result Unit :=
  match m.copy b.path b.file with
  | (some e, m) => (.error (.file b.file e), m)
  | (none, m) => (.ok (), m)

/-- Deletes the copy. -/
def drop (b : Backup) (m : Machine) : Machine := m.delete b.path

end Backup

end PackageRefs
