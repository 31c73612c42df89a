/-
# Removing references from a file

Without force a file is changed only where its script can be read and the name matches exactly.
With force a backup is taken first, and three ways are tried one after the other: taking the
references out of the tree, commenting statements out, and, if asked for, deleting all that mentions
the package.  If none of them finds anything, or the file cannot be written, the backup is put back.
-/
import PackageRefs.Machine.Backup
import PackageRefs.Removal.CommentOut
import PackageRefs.Removal.Strip
import PackageRefs.Removal.Structural

namespace PackageRefs

open PackageRefs.Disk

/-- What to remove, and how far to go. -/
structure RemovalRequest where
  file : String
  package : String
  force : Bool := false
  aggressive : Bool := false
  deriving DecidableEq, Inhabited, Repr

/-- The way in which references were removed. -/
inductive RemovalStrategy where
  | structural
  | commentedOut
  | aggressive
  deriving DecidableEq, Inhabited, Repr

/-- The wording of a strategy. -/
def RemovalStrategy.describe : RemovalStrategy → String
  | structural => "structural removal"
  | commentedOut => "commented out"
  | aggressive => "aggressive removal"

/-- What came of a removal. -/
inductive RemovalOutcome where
  /-- so many references went; the sizes of the file are in bytes -/
  | removed (strategy : RemovalStrategy) (count before after : Nat)
  /-- there is no reference, and the file is as it was -/
  | notFound
  deriving DecidableEq, Inhabited, Repr

/-- A script as a strategy leaves it. -/
structure Change where
  strategy : RemovalStrategy
  text : String
  count : Nat
  deriving DecidableEq, Inhabited, Repr

namespace Change

/-- The outcome of writing a changed script in the place of the one before. -/
def outcome (r : Change) (before : String) : RemovalOutcome :=
  .removed r.strategy r.count before.utf8ByteSize r.text.utf8ByteSize

/-- The change of the source through its tree, with loose matching. -/
def structural? (request : RemovalRequest) (source : String) : Option Change :=
  match removeStructurally request.file source request.package .substring with
  | .changed r => some ⟨.structural, r.code, r.count⟩
  | _ => none

/-- The change that an edit of the text makes, if it does anything. -/
def ofEdited? (strategy : RemovalStrategy) (e : Edited) : Option Change :=
  if 0 < e.count then some ⟨strategy, e.text, e.count⟩ else none

/-- The first change that finds anything. -/
def first? (request : RemovalRequest) (source : String) : Option Change :=
  match structural? request source with
  | some r => some r
  | none =>
    match ofEdited? .commentedOut (commentOutReferences source request.package) with
    | some r => some r
    | none =>
      if request.aggressive then
        ofEdited? .aggressive (stripReferences source request.package)
      else none

end Change

namespace RemovalRequest

/-- Removes exact references from a file whose text is the source. -/
def runExact (request : RemovalRequest) (source : String) (m : Machine) : Result RemovalOutcome :=
  match removeStructurally request.file source request.package .exact with
  | .unreadable complaint =>
    (.error (.unreadable request.file (unreadableMessage complaint)), m)
  | .unchanged => (.ok .notFound, m)
  | .changed r =>
    match m.save request.file r.code with
    | (.error e, m) => (.error e, m)
    | (.ok (), m) => (.ok (Change.outcome ⟨.structural, r.code, r.count⟩ source), m)

/-- Puts a backup back, and then reports what is given. -/
def giveUp (backup : Backup) (m : Machine) (report : Except Failure RemovalOutcome) :
    Result RemovalOutcome :=
  match backup.restore m with
  | (.error e, m) => (.error e, m)
  | (.ok (), m) => (report, m)

/-- Writes the first change of the source that finds anything, with a backup at hand. -/
def runGuarded (request : RemovalRequest) (source : String) (backup : Backup) (m : Machine) :
    Result RemovalOutcome :=
  match Change.first? request source with
  | none => giveUp backup m (.ok .notFound)
  | some r =>
    match m.save request.file r.text with
    | (.error e, m) => giveUp backup m (.error e)
    | (.ok (), m) => (.ok (r.outcome source), m)

/-- Removes references by any means from a file whose text is the source. -/
def runForced (request : RemovalRequest) (source : String) (m : Machine) : Result RemovalOutcome :=
  match Backup.create m request.file with
  | (.error e, m) => (.error e, m)
  | (.ok backup, m) =>
    let (result, m) := request.runGuarded source backup m
    (result, backup.drop m)

/-- Removes references from a file. -/
def run (request : RemovalRequest) (m : Machine) : Result RemovalOutcome :=
  match m.disk.readSource request.file with
  | .error e => (.error e, m)
  | .ok source => if request.force then request.runForced source m else request.runExact source m

end RemovalRequest

end PackageRefs
