/-
# What a removal does to other files

A removal without force touches its file and nothing else.  A forced removal also makes a backup, at a
place beside the file, and drops it when it is done.  So at most two places are touched, and what is at
the second one afterwards can be told beforehand:

* if the content fits under the limit, the backup is made and dropped, and nothing is left there,
  whatever was there before;
* if it does not, the backup stops half way and what was copied stays.

`run_spares_others_iff` puts this together: nothing but the file is touched exactly if the backup is
`Traceless`.

**A backup can leave a trace.**  `Example.cramped_littered` stops half way, and `Example.occupied_deleted`
finds a file in the backup's place.
-/
import PackageRefs.Proofs.Disk.Frame
import PackageRefs.Proofs.Removal.Forced

namespace PackageRefs

open PackageRefs.Disk PackageRefs.Text

namespace RemovalRequest

variable {request : RemovalRequest} {m : Machine}

/-! ## 1. Where the file is written -/

theorem touchesOnly_runExact (request : RemovalRequest) (source : String) (m : Machine) :
    m.disk.TouchesOnly (m.disk.locate request.file = .ok ·) (request.runExact source m).2.disk := by
  unfold runExact
  cases removeStructurally request.file source request.package .exact with
  | unreadable complaint => exact .refl _ _
  | unchanged => exact .refl _ _
  | changed r =>
    have hsave := m.touchesOnly_save request.file r.code
    dsimp only
    cases hs : m.save request.file r.code with
    | mk result m₁ =>
      rw [hs] at hsave
      cases result <;> exact hsave

theorem touchesOnly_giveUp (b : Backup) (m : Machine) (report : Except Failure RemovalOutcome) :
    m.disk.TouchesOnly (m.disk.locate b.file = .ok ·) (giveUp b m report).2.disk := by
  have hrestore := b.touchesOnly_restore m
  unfold giveUp
  cases hr : b.restore m with
  | mk result m₁ =>
    rw [hr] at hrestore
    cases result <;> exact hrestore

/-- With a backup at hand only the file is written, once or twice. -/
theorem touchesOnly_runGuarded (request : RemovalRequest) (source : String) {b : Backup} (hb : b.file = request.file)
    (m : Machine) :
    m.disk.TouchesOnly (m.disk.locate request.file = .ok ·)
      (request.runGuarded source b m).2.disk := by
  unfold runGuarded
  cases Change.first? request source with
  | none => exact hb ▸ touchesOnly_giveUp b m _
  | some change =>
    have hsave := m.touchesOnly_save request.file change.text
    dsimp only
    cases hs : m.save request.file change.text with
    | mk result m₁ =>
      rw [hs] at hsave
      cases result with
      | error e => exact hsave.trans_locate (hb ▸ touchesOnly_giveUp b m₁ _)
      | ok _ => exact hsave

/-! ## 2. Forced runs -/

variable {source : String} {content : Bytes} {p q : Place}

/-- Where there is no place for a backup, nothing happens. -/
theorem runForced_of_not_locate (source : String)
    (hq : ∀ q, m.disk.locate (Backup.pathAt request.file m.clock) = .ok q →
      m.disk.entry? q = some .directory) :
    (request.runForced source m).2 = m := by
  obtain ⟨e, hcreate⟩ := Backup.create_of_not_locate hq
  simp [runForced, hcreate]

/-- A content that does not fit is copied as far as it goes, and nothing else happens. -/
theorem runForced_of_exceeds (source : String) (hfile : m.disk.HoldsAt request.file p content)
    (hq : m.disk.locate (Backup.pathAt request.file m.clock) = .ok q)
    (hdir : m.disk.entry? q ≠ some .directory) (he : Disk.exceeds m.limit content = true) :
    (request.runForced source m).2 = m.written q content (m.disk.programAt q) := by
  have hcreate := Backup.create_of_locate hfile hq hdir
  rw [he, if_pos rfl] at hcreate
  simp [runForced, hcreate]

/-- A content that fits is copied, then the file may be written, and then the copy is erased. -/
theorem runForced_of_fits (source : String) (hfile : m.disk.HoldsAt request.file p content)
    (hq : m.disk.locate (Backup.pathAt request.file m.clock) = .ok q)
    (hdir : m.disk.entry? q ≠ some .directory) (he : Disk.exceeds m.limit content = false) :
    ∃ d, (m.written q content (m.disk.programAt q)).disk.TouchesOnly (· = p) d ∧
      (request.runForced source m).2.disk = d.erase q := by
  have hcreate := Backup.create_of_locate hfile hq hdir
  have hguards := Backup.guards_of_create hfile hq hdir he (m.disk.programAt q)
  rw [he, if_neg Bool.false_ne_true] at hcreate
  generalize m.written q content (m.disk.programAt q) = m₁ at *
  have htouch := @touchesOnly_runGuarded request source
    ⟨request.file, Backup.pathAt request.file m.clock⟩ rfl m₁
  have hplace : (fun r => m₁.disk.locate request.file = .ok r) = (· = p) := by
    funext r
    rw [hguards.locate_eq, Except.ok.injEq]
    exact propext eq_comm
  rw [hplace] at htouch
  have hcopy := hguards.copy.of_keepsDirectories htouch.keepsDirectories
    (htouch.entry?_eq hguards.apart.symm)
  refine ⟨_, htouch, ?_⟩
  simp only [runForced, hcreate, Backup.drop, Machine.delete]
  exact Disk.remove_of_holdsAt hcopy

/-- What is true of the disk after a forced removal: directories stay, the file is no directory, and
beside the file's and the backup's place all is as it was. -/
structure Framed (p q : Place) (d d' : Disk) : Prop where
  keepsDirectories : Disk.KeepsDirectories d d'
  ne_directory : d'.entry? p ≠ some .directory
  entry?_eq {r : Place} : r ≠ p → r ≠ q → d'.entry? r = d.entry? r

theorem framed_runForced (source : String) (hfile : m.disk.HoldsAt request.file p content)
    (hq : m.disk.locate (Backup.pathAt request.file m.clock) = .ok q)
    (hdir : m.disk.entry? q ≠ some .directory) :
    Framed p q m.disk (request.runForced source m).2.disk := by
  have hne : p ≠ q := Backup.locate_pathAt_ne hfile.locate_eq hq
  have hset := Disk.keepsDirectories_set (e := .file (Disk.fitting m.limit content)
    (m.disk.programAt q)) hdir
  cases he : Disk.exceeds m.limit content with
  | true =>
    rw [runForced_of_exceeds source hfile hq hdir he]
    refine ⟨hset, ?_, fun _ hr => Disk.entry?_set_ne hr⟩
    exact (hfile.set_ne hdir hne).ne_directory
  | false =>
    obtain ⟨d, htouch, hdisk⟩ := runForced_of_fits source hfile hq hdir he
    rw [hdisk]
    have hcopied : d.entry? q = some (.file (Disk.fitting m.limit content) (m.disk.programAt q)) := by
      rw [htouch.entry?_eq hne.symm]
      exact Disk.entry?_set_self ..
    refine ⟨(hset.trans htouch.keepsDirectories).trans
      (Disk.keepsDirectories_erase (by simp [hcopied])), ?_, fun {r} hrp hrq => ?_⟩
    · have hheld : (m.written q content (m.disk.programAt q)).disk.entry? p ≠ some .directory :=
        (hfile.set_ne hdir hne).ne_directory
      rw [Disk.entry?_erase_ne hne]
      rcases htouch.entry?_cases p with heq | ⟨-, -, hafter⟩
      · rwa [heq]
      · exact hafter
    · rw [Disk.entry?_erase_ne hrq, htouch.entry?_eq hrp]
      exact Disk.entry?_set_ne hrq

end RemovalRequest

/-! ## 3. The place of the backup -/

/-- A backup of the content leaves the place as it was: it cannot be begun, or it can be made and the
place is free, or it stops half way and that much of the content is there already. -/
def Backup.Traceless (m : Machine) (content : Bytes) (q : Place) : Prop :=
  m.disk.entry? q = some .directory ∨
  (Disk.exceeds m.limit content = false ∧ m.disk.entry? q = none) ∨
  (Disk.exceeds m.limit content = true ∧
    ∃ program, m.disk.entry? q = some (.file (Disk.fitting m.limit content) program))

namespace RemovalRequest

variable {request : RemovalRequest} {m : Machine} {content : Bytes} {p q : Place}

/-- **The place of the backup** is as it was exactly if the backup is traceless. -/
theorem entry?_runForced_iff (source : String) (hfile : m.disk.HoldsAt request.file p content)
    (hq : m.disk.locate (Backup.pathAt request.file m.clock) = .ok q) :
    (request.runForced source m).2.disk.entry? q = m.disk.entry? q ↔
      Backup.Traceless m content q := by
  unfold Backup.Traceless
  by_cases hdir : m.disk.entry? q = some .directory
  · have hnone : (request.runForced source m).2 = m := by
      refine runForced_of_not_locate source fun r hr => ?_
      obtain rfl : q = r := Except.ok.inj (hq.symm.trans hr)
      exact hdir
    simp [hnone, hdir]
  cases he : Disk.exceeds m.limit content with
  | true =>
    rw [runForced_of_exceeds source hfile hq hdir he]
    have hafter : (m.written q content (m.disk.programAt q)).disk.entry? q =
        some (.file (Disk.fitting m.limit content) (m.disk.programAt q)) := Disk.entry?_set_self ..
    simp only [hafter, hdir, Bool.true_eq_false, false_and, false_or, true_and]
    constructor
    · exact fun h => ⟨_, h.symm⟩
    · rintro ⟨program, h⟩
      simp [Disk.programAt, h]
  | false =>
    obtain ⟨d, htouch, hdisk⟩ := runForced_of_fits source hfile hq hdir he
    have hworking : d.working = m.disk.working := htouch.working_eq
    rw [hdisk, Disk.entry?_erase_self, hworking]
    simp only [hdir, Bool.false_eq_true, false_and, false_or, or_false, true_and]
    constructor
    · intro h
      split at h
      · exact absurd h.symm hdir
      · exact h.symm
    · intro h
      rw [Disk.not_isPrefixOf_working h, h]
      rfl

/-- **A forced removal with a place for its backup** spares every path that does not lead to its file,
exactly if the backup is traceless. -/
theorem runForced_sameAt_iff (source : String) (hfile : m.disk.HoldsAt request.file p content)
    (hq : m.disk.locate (Backup.pathAt request.file m.clock) = .ok q)
    (hdir : m.disk.entry? q ≠ some .directory) :
    (∀ path, m.disk.Apart path request.file →
        m.disk.SameAt (request.runForced source m).2.disk path) ↔ Backup.Traceless m content q := by
  have hframed := framed_runForced source hfile hq hdir
  have hentry := entry?_runForced_iff source hfile hq
  constructor
  · -- the backup's own path finds what it found
    intro h
    have hapart : m.disk.Apart (Backup.pathAt request.file m.clock) request.file :=
      fun r hr hheld => Backup.locate_pathAt_ne hheld hr rfl
    have hq' := Disk.locate_of_keepsDirectories hframed.keepsDirectories hq
    exact hentry.mp ((Disk.sameAt_iff_entry?_eq hq hq').mp (h _ hapart))
  · -- the backup's place is as it was, so only the file is touched
    intro h
    have htouch : m.disk.TouchesOnly (m.disk.locate request.file = .ok ·)
        (request.runForced source m).2.disk := by
      refine ⟨hframed.keepsDirectories.working_eq, fun r => ?_⟩
      by_cases hrp : r = p
      · subst hrp
        exact .inr ⟨hfile.locate_eq, hfile.ne_directory, hframed.ne_directory⟩
      by_cases hrq : r = q
      · subst hrq
        exact .inl (hentry.mpr h)
      · exact .inl (hframed.entry?_eq hrp hrq)
    exact fun path hapart => htouch.sameAt hapart

/-! ## 4. Whole runs -/

/-- **What a removal does to other files.**

* Every place beside those of the file and, with force, of the backup is as it was.
* Every path that does not lead to the file finds what it found, exactly if the removal is without force,
  the file cannot be read, or the backup is traceless. -/
theorem run_spares_others_iff (request : RemovalRequest) (m : Machine) :
    (∀ r, m.disk.locate request.file ≠ .ok r →
        (request.force = true → m.disk.locate (Backup.pathAt request.file m.clock) ≠ .ok r) →
        (request.run m).2.disk.entry? r = m.disk.entry? r) ∧
      ((∀ path, m.disk.Apart path request.file → m.disk.SameAt (request.run m).2.disk path) ↔
        ∀ source q, request.force = true → m.disk.readSource request.file = .ok source →
          m.disk.locate (Backup.pathAt request.file m.clock) = .ok q →
            Backup.Traceless m (encode source) q) := by
  -- what touches only the file spares all others, at places and at paths
  have hspared : ∀ d', m.disk.TouchesOnly (m.disk.locate request.file = .ok ·) d' →
      (∀ r, m.disk.locate request.file ≠ .ok r → d'.entry? r = m.disk.entry? r) ∧
        ∀ path, m.disk.Apart path request.file → m.disk.SameAt d' path :=
    fun d' htouch => ⟨fun r hr => htouch.entry?_eq hr, fun path hapart => htouch.sameAt hapart⟩
  cases hsource : m.disk.readSource request.file with
  | error e =>
    obtain ⟨hplaces, hpaths⟩ := hspared m.disk (.refl _ _)
    rw [run_of_readSource_error hsource]
    exact ⟨fun r hr _ => hplaces r hr, fun _ => by simp, fun _ => hpaths⟩
  | ok source =>
    cases hforce : request.force with
    | false =>
      obtain ⟨hplaces, hpaths⟩ := hspared _ (touchesOnly_runExact request source m)
      rw [run_eq_runExact hforce hsource]
      exact ⟨fun r hr _ => hplaces r hr, fun _ => by simp, fun _ => hpaths⟩
    | true =>
      rw [run_eq_runForced hforce hsource]
      obtain ⟨content, hread, hdecode⟩ := Disk.readSource_eq_ok_iff.mp hsource
      obtain ⟨p, hfile⟩ := Disk.exists_holdsAt_of_read hread
      rw [← encode_of_decode? hdecode] at hfile
      by_cases hplace : ∀ q, m.disk.locate (Backup.pathAt request.file m.clock) = .ok q →
          m.disk.entry? q = some .directory
      · -- there is no place for a backup
        obtain ⟨hplaces, hpaths⟩ := hspared m.disk (.refl _ _)
        rw [runForced_of_not_locate source hplace]
        refine ⟨fun r hr _ => hplaces r hr, fun _ => ?_, fun _ => hpaths⟩
        exact fun _ q _ _ hq => .inl (hplace q hq)
      simp only [Classical.not_forall] at hplace
      obtain ⟨q, hq, hdir⟩ := hplace
      have hsame := runForced_sameAt_iff source hfile hq hdir
      refine ⟨fun r hr hrq => ?_, fun h => ?_, fun h => ?_⟩
      · refine (framed_runForced source hfile hq hdir).entry?_eq ?_ ?_
        · rintro rfl
          exact hr hfile.locate_eq
        · rintro rfl
          exact hrq rfl hq
      · rintro source' r - hsource' hr
        obtain rfl : source = source' := Except.ok.inj hsource'
        obtain rfl : q = r := Except.ok.inj (hq.symm.trans hr)
        exact hsame.mp h
      · exact hsame.mpr (h source q rfl rfl hq)

namespace Example

/-- A forced removal of a package that a file imports. -/
def urgent : RemovalRequest := { file := "a.js", package := "m", force := true }

/-- A disk with the file and nothing else on it, and room for all of it. -/
def roomy : Machine := Machine.holding "a.js" "import 'm';"

/-- The file changes, and every other path finds what it found. -/
theorem roomy_spared :
    (urgent.run roomy).1 = .ok (.removed .structural 1 11 0) ∧
      ∀ path, roomy.disk.Apart path "a.js" → roomy.disk.SameAt (urgent.run roomy).2.disk path := by
  refine ⟨by decide +kernel, (run_spares_others_iff urgent roomy).2.mpr ?_⟩
  rintro source q - hsource hq
  have hplace : q = ["a.js.backup.0"] := Except.ok.inj (hq.symm.trans (by decide +kernel))
  subst hplace
  exact .inr (.inl ⟨rfl, by decide +kernel⟩)

/-- The copy stops half way and stays, though there is no backup. -/
theorem cramped_littered :
    let m := { roomy with limit := some 5 }
    m.disk.exists? "a.js.backup.0" = false ∧
      (urgent.run m).1 = .error (.file "a.js.backup.0" .tooLarge) ∧
      (urgent.run m).2.disk.exists? "a.js.backup.0" = true := by
  decide +kernel

/-- A file that is where the backup is made goes with it. -/
theorem occupied_deleted :
    let m : Machine := { disk := { entries :=
      [(["a.js"], .file (encode "import 'm';") none), (["a.js.backup.0"], .file [1, 2] none)] } }
    m.disk.exists? "a.js.backup.0" = true ∧
      (urgent.run m).1 = .ok (.removed .structural 1 11 0) ∧
      (urgent.run m).2.disk.exists? "a.js.backup.0" = false := by
  decide +kernel

end Example

end RemovalRequest

end PackageRefs
