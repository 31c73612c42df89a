/-
# Calls of programs

A call is kept with the disk as it was then, so the list of calls tells how often programs were called, with
which arguments, and what they could see.  What a program may write is the file that its arguments name.

`Running.Orderly` says this of a way of running programs.  The machine's own way is orderly, whether its
programs are installed or their answers are prepared (`Machine.orderly_run`).
-/
import PackageRefs.Machine.Program
import PackageRefs.Proofs.Disk.Frame

namespace PackageRefs

open PackageRefs.Disk PackageRefs.Text

/-- The place is that of the file that the arguments tell to write. -/
def IsOutfile (arguments : List String) (d : Disk) (p : Place) : Prop :=
  ∃ path, outfile? arguments = some path ∧ d.locate path = .ok p

/-- Every call is kept with the disk as it was then, and only the file that the arguments name is written. -/
structure Running.Orderly (run : Running) : Prop where
  calls_eq (m : Machine) (command : Command) :
    (run m command).2.calls = ⟨command, m.disk⟩ :: m.calls
  touchesOnly (m : Machine) (command : Command) :
    m.disk.TouchesOnly (IsOutfile command.arguments m.disk) (run m command).2.disk

namespace Machine

/-- No call was made between the machines, and at most the places in question were touched. -/
structure WritesOnly (may : Place → Prop) (m m' : Machine) : Prop where
  calls_eq : m'.calls = m.calls
  touchesOnly : m.disk.TouchesOnly may m'.disk

@[simp] theorem delete_disk (m : Machine) (path : String) :
    (m.delete path).disk = m.disk.remove path := rfl

@[simp] theorem delete_calls (m : Machine) (path : String) : (m.delete path).calls = m.calls := rfl

theorem WritesOnly.refl (may : Place → Prop) (m : Machine) : WritesOnly may m m := ⟨rfl, .refl _ _⟩

theorem writesOnly_writeOutfile (m : Machine) (arguments : List String) (bytes : Option Bytes) :
    WritesOnly (IsOutfile arguments m.disk) m (m.writeOutfile arguments bytes).2 := by
  unfold writeOutfile
  split
  · rename_i bytes path hpath
    have hwrite := Disk.touchesOnly_write m.disk m.limit path bytes
    exact ⟨rfl, hwrite.mono fun p hp => ⟨path, hpath, hp⟩⟩
  · exact .refl _ m

theorem writesOnly_runInstalled (m : Machine) (command : Command) :
    WritesOnly (IsOutfile command.arguments m.disk) m (m.runInstalled command).2 := by
  unfold runInstalled
  split
  · exact writesOnly_writeOutfile m _ _
  · exact .refl _ m
  · exact .refl _ m

theorem writesOnly_runPrepared (m : Machine) (command : Command) (answers : List Answer) :
    WritesOnly (IsOutfile command.arguments m.disk) m (m.runPrepared command answers).2 := by
  cases answers with
  | nil => exact .refl _ m
  | cons answer rest =>
    cases answer with
    | refuses e => exact ⟨rfl, .refl _ _⟩
    | runs output writes =>
      have hwrite := writesOnly_writeOutfile { m with runner := .prepared rest } command.arguments writes
      unfold runPrepared
      dsimp only
      cases hw : ({ m with runner := .prepared rest } : Machine).writeOutfile command.arguments writes with
      | mk error m₁ =>
        rw [hw] at hwrite
        cases error <;> exact ⟨hwrite.calls_eq, hwrite.touchesOnly⟩

/-- **The machine's way of running programs** is orderly. -/
theorem orderly_run : Running.Orderly run := by
  -- the answer is given on a machine that has kept the call
  have hanswer : ∀ (m : Machine) (command : Command),
      WritesOnly (IsOutfile command.arguments m.disk) { m with calls := ⟨command, m.disk⟩ :: m.calls }
        (m.run command).2 := by
    intro m command
    unfold run
    dsimp only
    split
    · exact writesOnly_runInstalled { m with calls := ⟨command, m.disk⟩ :: m.calls } command
    · exact writesOnly_runPrepared { m with calls := ⟨command, m.disk⟩ :: m.calls } command _
  constructor <;> intro m command
  · exact (hanswer m command).calls_eq
  · exact (hanswer m command).touchesOnly

end Machine

end PackageRefs
