/-
# Files and directories

A disk is a list of places with what they hold.  A place is the list of names that lead to it from
the top.  Looking a path up walks from directory to directory, so a path through a missing directory
leads nowhere, even if `..` would come back out of it.

Writing stops where a file would grow past the limit, if there is one; what was written up to there
stays.
-/
import PackageRefs.Disk.Path
import PackageRefs.Text.Utf8

namespace PackageRefs

open PackageRefs.Text

namespace Disk

/-! ## 1. What a disk holds -/

/-- What a program does when it is run. -/
structure Program where
  /-- The exit code. -/
  code : Nat := 0
  stdout : Bytes := []
  stderr : Bytes := []
  /-- What it writes to the file that it is told to write. -/
  writes : Option Bytes := none
  /-- It prints its arguments first. -/
  echoes : Bool := false
  deriving DecidableEq, Inhabited

/-- What a place holds. -/
inductive Entry where
  | directory
  /-- a file, which may be a program -/
  | file (content : Bytes) (program : Option Program)
  deriving DecidableEq, Inhabited

/-- A place: the names that lead to it from the top. -/
abbrev Place := List String

end Disk

open Disk in
/-- Files and directories by their places. -/
structure Disk where
  entries : List (Place × Entry) := []
  /-- The names of the working directory. -/
  working : Place := []
  deriving Inhabited

namespace Disk

/-- Why something could not be done with a file. -/
inductive FileError where
  | notFound
  | notDirectory
  | isDirectory
  | nameTooLong
  | tooLarge
  | permissionDenied
  | notRegular
  | notText
  /-- an error whose report names the path again -/
  | at (error : FileError) (path : String)
  | other (text : String)
  deriving DecidableEq, Inhabited

/-- A character as it is written in a quoted path. -/
def quotedChar (c : Char) : List Char :=
  match c with
  | '"' => ['\\', '"']
  | '\\' => ['\\', '\\']
  | '\n' => ['\\', 'n']
  | '\r' => ['\\', 'r']
  | '\t' => ['\\', 't']
  | '\x00' => ['\\', '0']
  | _ =>
    if c.toNat < 32 || c.toNat == 127 then
      '\\' :: 'u' :: '\x7b' :: Nat.toDigits 16 c.toNat ++ ['\x7d']
    else [c]

/-- The wording of an error. -/
def FileError.message : FileError → String
  | notFound => "No such file or directory (os error 2)"
  | notDirectory => "Not a directory (os error 20)"
  | isDirectory => "Is a directory (os error 21)"
  | nameTooLong => "File name too long (os error 36)"
  | tooLarge => "File too large (os error 27)"
  | permissionDenied => "Permission denied (os error 13)"
  | notRegular => "the source path is neither a regular file nor a symlink to a regular file"
  | notText => "stream did not contain valid UTF-8"
  | .at error path =>
    error.message ++ " at path \"" ++ String.ofList (path.toList.flatMap quotedChar) ++ "\""
  | other text => text

/-! ## 2. Single places -/

/-- What a place holds; the top and the working directory are always there. -/
def entry? (disk : Disk) (place : Place) : Option Entry :=
  match disk.entries.lookup place with
  | some e => some e
  | none => if place.isPrefixOf disk.working then some .directory else none

/-- The disk with something at a place. -/
def set (disk : Disk) (place : Place) (e : Entry) : Disk :=
  { disk with entries := (place, e) :: disk.entries.filter fun p => p.1 != place }

/-- The disk with nothing at a place. -/
def erase (disk : Disk) (place : Place) : Disk :=
  { disk with entries := disk.entries.filter fun p => p.1 != place }

/-- The disk with nothing at a place or below it. -/
def eraseTree (disk : Disk) (place : Place) : Disk :=
  { disk with entries := disk.entries.filter fun p => !place.isPrefixOf p.1 }

/-- The disk with directories at all places on the way to a place. -/
def withParents (disk : Disk) (place : Place) : Disk :=
  (directoriesAbove place).foldl
    (fun d above => if (d.entry? above).isSome then d else d.set above .directory) disk

/-! ## 3. Looking paths up -/

/-- The longest name of a file, in bytes. -/
def longestName : Nat := 255

/-- Walks from a place along the parts of a path.  Every place that is left on the way has to be a
directory. -/
def walk (disk : Disk) : Place → List (List Char) → Except FileError Place
  | place, [] => .ok place
  | place, part :: rest =>
    match disk.entry? place with
    | none => .error .notFound
    | some (.file ..) => .error .notDirectory
    | some .directory =>
      if part.isEmpty || part == ['.'] then disk.walk place rest
      else if part == ['.', '.'] then disk.walk place.dropLast rest
      else
        let name := String.ofList part
        if longestName < name.utf8ByteSize then .error .nameTooLong
        else disk.walk (place ++ [name]) rest

/-- The place that a path leads to; the place itself may be empty. -/
def locate (disk : Disk) (path : String) : Except FileError Place :=
  if path.isEmpty then .error .notFound
  else disk.walk (if isAbsolute path then [] else disk.working) (splitPath path.toList)

/-- What a path leads to. -/
def lookup (disk : Disk) (path : String) : Except FileError Entry :=
  match disk.locate path with
  | .error e => .error e
  | .ok place =>
    match disk.entry? place with
    | some e => .ok e
    | none => .error .notFound

/-- The path leads to something. -/
def exists? (disk : Disk) (path : String) : Bool :=
  match disk.lookup path with
  | .ok _ => true
  | .error _ => false

/-- The path leads to a file. -/
def isFile (disk : Disk) (path : String) : Bool :=
  match disk.lookup path with
  | .ok (.file ..) => true
  | _ => false

/-- The path leads to a program. -/
def program? (disk : Disk) (path : String) : Option Program :=
  match disk.lookup path with
  | .ok (.file _ p) => p
  | _ => none

/-! ## 4. Reading and writing -/

/-- The bytes of a file. -/
def read (disk : Disk) (path : String) : Except FileError Bytes :=
  match disk.lookup path with
  | .ok (.file content _) => .ok content
  | .ok .directory => .error .isDirectory
  | .error e => .error e

/-- The text of a file. -/
def readText (disk : Disk) (path : String) : Except FileError String :=
  match disk.read path with
  | .ok bytes =>
    match decode? bytes with
    | some s => .ok s
    | none => .error .notText
  | .error e => .error e

/-- The text has more bytes than a file may have. -/
def exceeds (limit : Option Nat) (bytes : Bytes) : Bool := limit.any (· < bytes.length)

/-- Writes a file anew, up to the limit; the error, if there is one, comes with what was written. -/
def write (disk : Disk) (limit : Option Nat) (path : String) (bytes : Bytes) :
    Disk × Option FileError :=
  match disk.locate path with
  | .error e => (disk, some e)
  | .ok place =>
    let program :=
      match disk.entry? place with
      | some (.file _ p) => p
      | _ => none
    match disk.entry? place with
    | some .directory => (disk, some .isDirectory)
    | _ =>
      let kept := match limit with | some n => bytes.take n | none => bytes
      (disk.set place (.file kept program), if exceeds limit bytes then some .tooLarge else none)

/-- Copies a file; what is at the target is written over. -/
def copy (disk : Disk) (limit : Option Nat) (source target : String) : Disk × Option FileError :=
  match disk.lookup source with
  | .error e => (disk, some e)
  | .ok .directory => (disk, some .notRegular)
  | .ok (.file content _) => disk.write limit target content

/-- Deletes a file, if it is there. -/
def remove (disk : Disk) (path : String) : Disk :=
  match disk.locate path with
  | .error _ => disk
  | .ok place =>
    match disk.entry? place with
    | some (.file ..) => disk.erase place
    | _ => disk

end Disk

end PackageRefs
