/-
# What a structural removal answers

`removeStructurally` reads a script, takes the references out of its tree and prints what is left.
Which of its three answers it gives depends on two facts about the script: whether it could be read,
and whether its tree exposes a reference that goes.
-/
import PackageRefs.Proofs.Removal.Reach
import PackageRefs.Removal.Structural

namespace PackageRefs

open PackageRefs.Script

/- Results are compared where a removal from a given script is evaluated. -/
deriving instance DecidableEq for StructuralResult

/-- The test by which a removal tells the references that go. -/
def MatchMode.test (mode : MatchMode) (package : String) : String → Bool := (mode.accepts · package)

@[simp] theorem MatchMode.test_exact {package request : String} :
    MatchMode.exact.test package request = true ↔ request = package := by
  simp [test, accepts]

/-- The tree that is read for a removal. -/
def programRead (file source : String) (mode : MatchMode) : Tree :=
  (readForRemoval file source mode).1.program

/-- The tree that a removal leaves. -/
def programLeft (file source package : String) (mode : MatchMode) : Tree :=
  ((programRead file source mode).remove (mode.test package)).1

/-- The text that a removal leaves. -/
def textLeft (file source package : String) (mode : MatchMode) : String :=
  print .spacious (readForRemoval file source mode).2 (readForRemoval file source mode).1.comments
    (programLeft file source package mode)

variable {file source package : String} {mode : MatchMode}

theorem removeStructurally_eq (file source package : String) (mode : MatchMode) :
    removeStructurally file source package mode =
      if readingFailed mode (readForRemoval file source mode).1 then
        .unreadable (readForRemoval file source mode).1.diagnostics.head?
      else
        match ((programRead file source mode).remove (mode.test package)).2 with
        | 0 => .unchanged
        | count => .changed ⟨textLeft file source package mode, count⟩ := by
  unfold removeStructurally textLeft programLeft programRead MatchMode.test
  generalize readForRemoval file source mode = result
  obtain ⟨parsed, dialect⟩ := result
  dsimp only
  generalize Tree.remove _ parsed.program = edited
  obtain ⟨program, count⟩ := edited
  cases count <;> rfl

/-- **Something is removed** exactly if the script can be read and its tree exposes a reference. -/
theorem removeStructurally_eq_changed_iff {r : Remainder} :
    removeStructurally file source package mode = .changed r ↔
      readingFailed mode (readForRemoval file source mode).1 = false ∧
        Tree.Exposes (mode.test package) .elsewhere (programRead file source mode) ∧
        r = ⟨textLeft file source package mode,
          ((programRead file source mode).remove (mode.test package)).2⟩ := by
  rw [removeStructurally_eq, ← Tree.remove_count_pos_iff]
  cases readingFailed mode (readForRemoval file source mode).1 with
  | true => simp
  | false => cases ((programRead file source mode).remove (mode.test package)).2 <;> simp [eq_comm]

theorem removeStructurally_eq_unchanged_iff :
    removeStructurally file source package mode = .unchanged ↔
      readingFailed mode (readForRemoval file source mode).1 = false ∧
        ¬Tree.Exposes (mode.test package) .elsewhere (programRead file source mode) := by
  rw [removeStructurally_eq, ← Tree.remove_count_pos_iff]
  cases readingFailed mode (readForRemoval file source mode).1 with
  | true => simp
  | false => cases ((programRead file source mode).remove (mode.test package)).2 <;> simp

theorem exists_removeStructurally_changed_iff :
    (∃ r, removeStructurally file source package mode = .changed r) ↔
      readingFailed mode (readForRemoval file source mode).1 = false ∧
        Tree.Exposes (mode.test package) .elsewhere (programRead file source mode) := by
  simp only [removeStructurally_eq_changed_iff, exists_and_left, exists_eq, and_true]

/-- A script is read in some dialect. -/
theorem exists_dialect (file source : String) (mode : MatchMode) :
    ∃ dialect, readForRemoval file source mode = (parse dialect source, dialect) := by
  unfold readForRemoval
  dsimp only
  split
  · split
    · rename_i retry _
      exact ⟨retry, rfl⟩
    · exact ⟨Dialect.ofPath file, rfl⟩
  · exact ⟨Dialect.ofPath file, rfl⟩

/-- A script with which nothing is wrong is read in the dialect of its name, whatever the mode. -/
theorem readForRemoval_of_valid (h : (parse (Dialect.ofPath file) source).succeeded = true)
    (mode : MatchMode) :
    readingFailed mode (parse (Dialect.ofPath file) source) = false ∧
      readForRemoval file source mode =
        (parse (Dialect.ofPath file) source, Dialect.ofPath file) := by
  have hread : readingFailed mode (parse (Dialect.ofPath file) source) = false := by
    cases mode with
    | exact => rw [readingFailed, h]; rfl
    | substring =>
      rw [Parsed.succeeded, Bool.and_eq_true, Bool.not_eq_true'] at h
      exact h.1
  refine ⟨hread, ?_⟩
  unfold readForRemoval
  simp only [hread, Bool.false_eq_true, if_false]

end PackageRefs
