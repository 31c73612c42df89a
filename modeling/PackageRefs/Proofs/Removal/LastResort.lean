/-
# The last resort

Asking a forced removal to be aggressive adds one way to the end of those that it tries.  So it changes
nothing where one of the others finds something (`first?_forced_true`), and where they find nothing the
lines that mention the package go.

`run_last_resort` puts this together: the last resort is one, it never misses, and it leaves no mention
behind.  What is tried before it may leave some.
-/
import PackageRefs.Proofs.Removal.Forced
import PackageRefs.Proofs.Removal.Strip

namespace PackageRefs

open PackageRefs.Disk PackageRefs.Text

namespace RemovalRequest

/-- A request for a forced removal. -/
def forced (file package : String) (aggressive : Bool) : RemovalRequest :=
  { file, package, force := true, aggressive }

end RemovalRequest

/-! ## 1. The change -/

namespace Change

variable {file package source : String} {change : Change}

theorem ofEdited?_eq_some_iff {strategy : RemovalStrategy} {e : Edited} :
    ofEdited? strategy e = some change ↔ 0 < e.count ∧ ⟨strategy, e.text, e.count⟩ = change := by
  unfold ofEdited?
  split <;> simp [*]

/-- **Being aggressive** is trying one thing more, after the others. -/
theorem first?_forced_true (file package source : String) :
    first? (.forced file package true) source =
      (first? (.forced file package false) source).or
        (ofEdited? .aggressive (stripReferences source package)) := by
  have hsame : structural? (.forced file package true) source =
      structural? (.forced file package false) source := rfl
  unfold first?
  rw [hsame]
  dsimp only [RemovalRequest.forced]
  -- what the ways are does not matter here, only their order
  generalize structural? _ source = first
  generalize ofEdited? .commentedOut _ = second
  generalize ofEdited? .aggressive _ = third
  cases first <;> cases second <;> rfl

theorem strategy_structural? {request : RemovalRequest} (h : structural? request source = some change) :
    change.strategy = .structural := by
  unfold structural? at h
  split at h
  · exact Option.some.inj h ▸ rfl
  · cases h

/-- Without being asked nothing is aggressive. -/
theorem strategy_first?_forced_false (h : first? (.forced file package false) source = some change) :
    change.strategy ≠ .aggressive := by
  unfold first? at h
  dsimp only [RemovalRequest.forced] at h
  split at h
  · rename_i r hstructural
    rw [← Option.some.inj h, strategy_structural? hstructural]
    simp
  · split at h
    · rename_i r hcommented
      obtain ⟨-, rfl⟩ := ofEdited?_eq_some_iff.mp hcommented
      rw [← Option.some.inj h]
      simp
    · cases h

/-- A package that the source mentions anywhere is found. -/
theorem exists_first?_of_infix (file : String) (hline : '\n' ∉ package.toList) (hne : package.toList ≠ [])
    (hmention : package.toList <:+: source.toList) :
    ∃ change, first? (.forced file package true) source = some change := by
  have hcount : 0 < (stripReferences source package).count := by
    rw [stripReferences_eq hline hne]
    exact (countP_occursIn_pos_iff hline hne).mpr hmention
  rw [first?_forced_true, ofEdited?_eq_some_iff.mpr ⟨hcount, rfl⟩, Option.or_some]
  exact ⟨_, rfl⟩

/-- What an aggressive change leaves does not mention the package. -/
theorem not_infix_of_aggressive (hline : '\n' ∉ package.toList) (hne : package.toList ≠ [])
    (hfirst : first? (.forced file package true) source = some change)
    (haggressive : change.strategy = .aggressive) :
    ¬package.toList <:+: change.text.toList := by
  rw [first?_forced_true] at hfirst
  rcases Option.or_eq_some_iff.mp hfirst with hmild | ⟨-, hstripped⟩
  · exact absurd haggressive (strategy_first?_forced_false hmild)
  · obtain ⟨-, rfl⟩ := ofEdited?_eq_some_iff.mp hstripped
    exact not_infix_stripReferences hline hne

end Change

/-! ## 2. Failures of the disk -/

/-- The failure is that a file could not be read or written. -/
def Failure.OfFile (e : Failure) : Prop := ∃ path complaint, e = .file path complaint

theorem Machine.ofFile_of_save {m m' : Machine} {file text : String} {e : Failure}
    (h : m.save file text = (.error e, m')) : e.OfFile := by
  unfold Machine.save at h
  split at h
  · exact ⟨_, _, (Except.error.inj (Prod.mk.inj h).1).symm⟩
  · cases h

theorem Backup.ofFile_of_create {m m' : Machine} {file : String} {e : Failure}
    (h : Backup.create m file = (.error e, m')) : e.OfFile := by
  unfold Backup.create at h
  dsimp only at h
  split at h
  · exact ⟨_, _, (Except.error.inj (Prod.mk.inj h).1).symm⟩
  · cases h

theorem Backup.ofFile_of_restore {b : Backup} {m m' : Machine} {e : Failure}
    (h : b.restore m = (.error e, m')) : e.OfFile := by
  unfold Backup.restore at h
  split at h
  · exact ⟨_, _, (Except.error.inj (Prod.mk.inj h).1).symm⟩
  · cases h

namespace RemovalRequest

variable {request : RemovalRequest} {source : String} {m : Machine}

/-- Giving up after a failure of the disk is one. -/
theorem giveUp_of_ofFile (b : Backup) (m : Machine) {e : Failure} (he : e.OfFile) :
    ∃ e', (giveUp b m (.error e)).1 = .error e' ∧ e'.OfFile := by
  unfold giveUp
  cases hrestore : b.restore m with
  | mk result m₁ =>
    cases result with
    | ok _ => exact ⟨e, rfl, he⟩
    | error e' => exact ⟨e', rfl, Backup.ofFile_of_restore hrestore⟩

/-- **A change that is found** is made, or the disk fails. -/
theorem runForced_of_first? {change : Change} (hfirst : Change.first? request source = some change)
    (m : Machine) :
    (request.runForced source m).1 = .ok (change.outcome source) ∨
      ∃ e, (request.runForced source m).1 = .error e ∧ e.OfFile := by
  unfold runForced
  cases hcreate : Backup.create m request.file with
  | mk made m₁ =>
    cases made with
    | error e => exact .inr ⟨e, rfl, Backup.ofFile_of_create hcreate⟩
    | ok backup =>
      unfold runGuarded
      rw [hfirst]
      dsimp only
      cases hsave : m₁.save request.file change.text with
      | mk saved m₂ =>
        cases saved with
        | error e => exact .inr (giveUp_of_ofFile backup m₂ (Machine.ofFile_of_save hsave))
        | ok _ => exact .inl rfl

/-! ## 3. The run -/

/-- A forced run depends on the file and on the change that is found. -/
theorem runForced_congr {request' : RemovalRequest} (hfile : request.file = request'.file)
    (hfirst : Change.first? request source = Change.first? request' source) :
    request.runForced source m = request'.runForced source m := by
  unfold runForced runGuarded
  rw [hfile, hfirst]

/-- Behind a removal there is a change that was found, and its text is in the file. -/
theorem first?_of_run_removed (hforce : request.force = true) {strategy : RemovalStrategy}
    {count before after : Nat}
    (h : (request.run m).1 = .ok (.removed strategy count before after)) :
    ∃ source change, m.disk.readSource request.file = .ok source ∧
      Change.first? request source = some change ∧ change.strategy = strategy ∧
      (request.run m).2.disk.read request.file = .ok (encode change.text) := by
  cases hsource : m.disk.readSource request.file with
  | error e =>
    rw [run_of_readSource_error hsource] at h
    cases h
  | ok source =>
    obtain ⟨result, m', hrun, hcases⟩ := runForced_cases request source m
    rw [run_eq_runForced hforce hsource, hrun] at h
    rw [run_eq_runForced hforce hsource, hrun]
    dsimp only at h
    subst h
    rcases hcases with ⟨change, hfirst, houtcome, hwritten⟩ | ⟨hnone | ⟨e, herror⟩, -⟩
    · refine ⟨source, change, rfl, hfirst, ?_, hwritten⟩
      rw [Change.outcome, Except.ok.injEq, RemovalOutcome.removed.injEq] at houtcome
      exact houtcome.1.symm
    · cases hnone
    · cases herror

/-- **The last resort.**  For every machine and every package whose name is not empty and has no line
feed:

* where a forced removal removes something, being aggressive makes no difference to the outcome or to the
  machine;
* where the source mentions the package anywhere, being aggressive removes something, or the disk fails;
* where an aggressive removal had to go to the last resort, the file does not mention the package. -/
theorem run_last_resort (file package : String) (hne : package ≠ "") (hline : '\n' ∉ package.toList)
    (m : Machine) :
    (∀ strategy count before after,
        ((forced file package false).run m).1 = .ok (.removed strategy count before after) →
        (forced file package true).run m = (forced file package false).run m) ∧
      (∀ source, m.disk.readSource file = .ok source → package.toList <:+: source.toList →
        (∃ strategy count before after,
          ((forced file package true).run m).1 = .ok (.removed strategy count before after)) ∨
        ∃ e, ((forced file package true).run m).1 = .error e ∧ e.OfFile) ∧
      ∀ count before after,
        ((forced file package true).run m).1 = .ok (.removed .aggressive count before after) →
        ∃ text, ((forced file package true).run m).2.disk.read file = .ok (encode text) ∧
          ¬package.toList <:+: text.toList := by
  have hname : package.toList ≠ [] := by rwa [ne_eq, String.toList_eq_nil_iff]
  refine ⟨fun strategy count before after h => ?_, fun source hsource hmention => ?_,
    fun count before after h => ?_⟩
  · obtain ⟨source, change, hsource, hfirst, -, -⟩ := first?_of_run_removed rfl h
    have hsame : Change.first? (forced file package true) source =
        Change.first? (forced file package false) source := by
      rw [Change.first?_forced_true, hfirst, Option.some_or]
    calc (forced file package true).run m
        = (forced file package true).runForced source m := run_eq_runForced rfl hsource
      _ = (forced file package false).runForced source m := runForced_congr rfl hsame
      _ = (forced file package false).run m := (run_eq_runForced rfl hsource).symm
  · obtain ⟨change, hfirst⟩ := Change.exists_first?_of_infix file hline hname hmention
    rw [run_eq_runForced rfl hsource]
    rcases runForced_of_first? hfirst m with hmade | hfails
    · exact .inl ⟨_, _, _, _, hmade⟩
    · exact .inr hfails
  · obtain ⟨source, change, -, hfirst, haggressive, hwritten⟩ := first?_of_run_removed rfl h
    exact ⟨change.text, hwritten, Change.not_infix_of_aggressive hline hname hfirst haggressive⟩

namespace Example

/-- A script that mentions a package and does not refer to it. -/
def logging : Machine := Machine.holding "a.js" "log('m');\nf();"

/-- Nothing else finds the mention; the last resort does, and takes its line. -/
theorem logging_stripped :
    ((forced "a.js" "m" false).run logging).1 = .ok .notFound ∧
      ((forced "a.js" "m" true).run logging).1 = .ok (.removed .aggressive 1 14 4) ∧
      ∃ text, ((forced "a.js" "m" true).run logging).2.disk.read "a.js" = .ok (encode text) ∧
        ¬"m".toList <:+: text.toList := by
  have hremoved : ((forced "a.js" "m" true).run logging).1 =
      .ok (.removed .aggressive 1 14 4) := by decide +kernel
  exact ⟨by decide +kernel, hremoved,
    (run_last_resort "a.js" "m" (by decide) (by decide) logging).2.2 1 14 4 hremoved⟩

end Example

end RemovalRequest

end PackageRefs
