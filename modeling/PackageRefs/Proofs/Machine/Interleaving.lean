/-
# Several backups at a time

Backups may be made, put back and dropped in any order, and files may be written in between.  A backup is
intact while its copy holds what the file held when the backup was made.

One act changes one file (`Disk.Edited`).  So the question at every step is whether that file is the copy of
a backup that is held afterwards:

* `Scene.Spares` is the condition: what is deleted is no such copy, and what is written is none, or it is
  what the copy holds already;
* `Sound.step` is one act: it leaves intact backups intact exactly if it spares them;
* `Sound.intactThroughout_iff` is a whole run.

**Not every run spares the backups.**  The name of a copy has the time in it, and nothing else that is new.
Two backups of a file that are made in one millisecond have one copy.  It goes with the one that is dropped
first (`Example.namesakes_lost`), and the second backup may have been written over the first
(`Example.namesakes_overwritten`).

That is the only way for two backups to share a copy (`Held.Tracked.same_of_not_apart`).  Backups that are
made at different times are spared (`intactThroughout_of_distinct`).
-/
import PackageRefs.Proofs.Machine.Backup

namespace PackageRefs

open PackageRefs.Disk PackageRefs.Text

/-! ## 1. Scenes and acts -/

/-- A backup that was made and not dropped, with the time of its making and what the file held then. -/
structure Held where
  backup : Backup
  time : Nat
  content : Bytes

/-- A machine, and the backups that are held, in the order of their making. -/
structure Scene where
  machine : Machine
  held : List Held

/-- What is done with backups, and to files in between. -/
inductive Act where
  /-- a backup is made of a file, at a time -/
  | create (file : String) (time : Nat)
  /-- a backup is put back -/
  | restore (i : Nat)
  /-- a backup is dropped -/
  | drop (i : Nat)
  /-- a file is written -/
  | write (file : String) (content : Bytes)

namespace Scene

/-- The scene after an act.  There is none if a backup cannot be made or a file cannot be written, or if
there is no such backup.  A backup that has lost its copy cannot be put back either, but the run goes on. -/
def perform? (s : Scene) : Act → Option Scene
  | .create file time =>
    match s.machine.disk.read file, Backup.create { s.machine with clock := time } file with
    | .ok content, (.ok backup, machine) => some ⟨machine, s.held ++ [⟨backup, time, content⟩]⟩
    | _, _ => none
  | .restore i => s.held[i]?.map fun h => ⟨(h.backup.restore s.machine).2, s.held⟩
  | .drop i => s.held[i]?.map fun h => ⟨h.backup.drop s.machine, s.held.eraseIdx i⟩
  | .write file content =>
    match s.machine.write file content with
    | (none, machine) => some ⟨machine, s.held⟩
    | (some _, _) => none

/-- The scene after a run. -/
def performAll? : Scene → List Act → Option Scene
  | s, [] => some s
  | s, act :: rest => (s.perform? act).bind fun s' => performAll? s' rest

end Scene

/-- The copy holds what the file held. -/
def Held.Intact (h : Held) (m : Machine) : Prop := m.disk.read h.backup.path = .ok h.content

namespace Scene

/-- All backups that are held are intact. -/
def Intact (s : Scene) : Prop := ∀ h ∈ s.held, h.Intact s.machine

/-- The act leaves the copies of the backups alone that are held afterwards: what it writes or deletes is
none of them, or it writes what the copy holds already. -/
def Spares (s : Scene) : Act → Prop
  | .create file time => ∀ h ∈ s.held,
      s.machine.disk.Apart h.backup.path (Backup.pathAt file time) ∨
        s.machine.disk.read file = .ok h.content
  | .restore i => ∀ g ∈ s.held[i]?, ∀ h ∈ s.held,
      s.machine.disk.Apart h.backup.path g.backup.file ∨ g.content = h.content
  | .drop i => ∀ g ∈ s.held[i]?, ∀ h ∈ s.held.eraseIdx i,
      s.machine.disk.Apart h.backup.path g.backup.path
  | .write file content => ∀ h ∈ s.held,
      s.machine.disk.Apart h.backup.path file ∨ content = h.content

/-- All backups are intact before every act of a run, and after the last one. -/
def IntactThroughout : Scene → List Act → Prop
  | s, [] => s.Intact
  | s, act :: rest => s.Intact ∧ ∀ s' ∈ s.perform? act, IntactThroughout s' rest

/-- Every act of a run spares the backups that are held. -/
def SparesThroughout : Scene → List Act → Prop
  | _, [] => True
  | s, act :: rest => ∀ s' ∈ s.perform? act, s.Spares act ∧ SparesThroughout s' rest

instance decidableIntact (s : Scene) : Decidable s.Intact :=
  inferInstanceAs (Decidable (∀ h ∈ s.held, s.machine.disk.read h.backup.path = .ok h.content))

instance decidableSpares (s : Scene) : (act : Act) → Decidable (s.Spares act)
  | .create file time => inferInstanceAs (Decidable (∀ h ∈ s.held,
      s.machine.disk.Apart h.backup.path (Backup.pathAt file time) ∨
        s.machine.disk.read file = .ok h.content))
  | .restore i => inferInstanceAs (Decidable (∀ g ∈ s.held[i]?, ∀ h ∈ s.held,
      s.machine.disk.Apart h.backup.path g.backup.file ∨ g.content = h.content))
  | .drop i => inferInstanceAs (Decidable (∀ g ∈ s.held[i]?, ∀ h ∈ s.held.eraseIdx i,
      s.machine.disk.Apart h.backup.path g.backup.path))
  | .write file content => inferInstanceAs (Decidable (∀ h ∈ s.held,
      s.machine.disk.Apart h.backup.path file ∨ content = h.content))

instance decidableSparesThroughout : (s : Scene) → (acts : List Act) → Decidable (s.SparesThroughout acts)
  | _, [] => isTrue trivial
  | s, act :: rest =>
    have : ∀ s', Decidable (SparesThroughout s' rest) := fun s' => decidableSparesThroughout s' rest
    inferInstanceAs (Decidable (∀ s' ∈ s.perform? act, s.Spares act ∧ SparesThroughout s' rest))

end Scene

/-! ## 2. What no act changes -/

/-- What is true of a backup that is held, intact or not: where its file and its copy are, and that the
content fits under the limit. -/
structure Held.Tracked (h : Held) (m : Machine) : Prop where
  path_eq : h.backup.path = Backup.pathAt h.backup.file h.time
  file : m.disk.LeadsToFile h.backup.file
  copy : m.disk.LeadsToFile h.backup.path
  fits : Disk.exceeds m.limit h.content = false

namespace Held

variable {h : Held} {m m' : Machine}

theorem Tracked.of_touchesOnly {may : Place → Prop} (ht : h.Tracked m)
    (htouch : m.disk.TouchesOnly may m'.disk) (hlimit : m'.limit = m.limit) : h.Tracked m' where
  path_eq := ht.path_eq
  file := htouch.leadsToFile ht.file
  copy := htouch.leadsToFile ht.copy
  fits := hlimit ▸ ht.fits

/-- An intact backup guards its file. -/
theorem Tracked.guards (ht : h.Tracked m) (hintact : h.Intact m) :
    ∃ p q, Backup.Guards h.backup h.content p q m := by
  obtain ⟨p, hp, hdir⟩ := ht.file
  obtain ⟨q, hcopy⟩ := Disk.exists_holdsAt_of_read hintact
  have hne := Backup.locate_pathAt_ne hp (ht.path_eq ▸ hcopy.locate_eq)
  exact ⟨p, q, hp, hdir, hcopy, hne, ht.fits⟩

/-- **An intact backup can be put back**, and the file has its content again. -/
theorem Tracked.restore (ht : h.Tracked m) (hintact : h.Intact m) :
    ∃ m', h.backup.restore m = (.ok (), m') ∧ m'.disk.read h.backup.file = .ok h.content := by
  obtain ⟨p, q, hguards⟩ := ht.guards hintact
  obtain ⟨m', hrestore, hheld, -⟩ := hguards.restore
  exact ⟨m', hrestore, hheld.read_eq⟩

/-- Putting an intact backup back writes its content to the file. -/
theorem Tracked.edited_restore (ht : h.Tracked m) (hintact : h.Intact m) :
    m.disk.Edited (h.backup.restore m).2.disk h.backup.file (some h.content) := by
  obtain ⟨m', hrestore, -⟩ := ht.restore hintact
  rw [hrestore]
  unfold Backup.restore at hrestore
  split at hrestore
  · cases hrestore
  · rename_i m₁ hcopy
    obtain rfl : m₁ = m' := (Prod.mk.inj hrestore).2
    obtain ⟨content, hread, hwrite⟩ := Machine.of_copy_eq_none hcopy
    obtain rfl : h.content = content := Except.ok.inj (hintact.symm.trans hread)
    exact (Machine.of_write_eq_none hwrite).2.2.2

/-- **Two backups with one copy** are of one file, and were made in one millisecond. -/
theorem Tracked.same_of_not_apart {g : Held} (hg : g.Tracked m) (hh : h.Tracked m)
    (hmet : ¬m.disk.Apart g.backup.path h.backup.path) :
    g.time = h.time ∧ ¬m.disk.Apart g.backup.file h.backup.file := by
  simp only [Disk.Apart, Classical.not_forall, Classical.not_not] at hmet
  obtain ⟨q, hq, hq'⟩ := hmet
  obtain ⟨p, hp, -⟩ := hg.file
  obtain ⟨p', hp', -⟩ := hh.file
  obtain ⟨rfl, htime⟩ := Backup.eq_of_locate_pathAt_eq hp hp' (hg.path_eq ▸ hq) (hh.path_eq ▸ hq')
  exact ⟨htime, fun hapart => hapart p hp hp'⟩

end Held

namespace Scene

/-- The working directory is there, and all backups are tracked. -/
structure Sound (s : Scene) : Prop where
  rooted : s.machine.disk.Rooted
  tracked : ∀ h ∈ s.held, h.Tracked s.machine

variable {s s' : Scene}

/-- An edit of the disk leaves a scene sound. -/
theorem Sound.of_touchesOnly {may : Place → Prop} {m' : Machine} (hs : s.Sound)
    (htouch : s.machine.disk.TouchesOnly may m'.disk) (hlimit : m'.limit = s.machine.limit) :
    Sound ⟨m', s.held⟩ where
  rooted := hs.rooted.of_keepsDirectories htouch.keepsDirectories
  tracked h hh := (hs.tracked h hh).of_touchesOnly htouch hlimit

/-- Backups stay intact exactly if the edit is of none of the copies, or leaves their content. -/
theorem forall_intact_iff {held : List Held} {m m' : Machine} {path : String} {after? : Option Bytes}
    (hintact : ∀ h ∈ held, h.Intact m) (hedit : m.disk.Edited m'.disk path after?) :
    (∀ h ∈ held, h.Intact m') ↔
      ∀ h ∈ held, m.disk.Apart h.backup.path path ∨ after? = some h.content :=
  forall₂_congr fun h hh => hedit.read_eq_ok_iff (hintact h hh)

/-! ## 3. One act -/

/-- What an act comes to: the scene is sound, paths lead where they led, and intact backups are intact
exactly if they were spared. -/
structure Performed (s : Scene) (act : Act) (s' : Scene) : Prop where
  sound : s'.Sound
  locate_iff (path : String) (p : Place) :
    s'.machine.disk.locate path = .ok p ↔ s.machine.disk.locate path = .ok p
  intact_iff : s.Intact → (s'.Intact ↔ s.Spares act)

/-- A backup is made by a write of what the file holds. -/
theorem of_perform_create {file : String} {time : Nat} (h : s.perform? (.create file time) = some s') :
    ∃ content m', s.machine.disk.read file = .ok content ∧
      ({ s.machine with clock := time } : Machine).write (Backup.pathAt file time) content = (none, m') ∧
      s' = ⟨m', s.held ++ [⟨⟨file, Backup.pathAt file time⟩, time, content⟩]⟩ := by
  simp only [perform?] at h
  split at h
  case h_2 => cases h
  rename_i content backup m' hread hcreate
  obtain ⟨rfl, hcopy⟩ := Backup.of_create_eq_ok hcreate
  obtain ⟨content', hread', hwrite⟩ := Machine.of_copy_eq_none hcopy
  obtain rfl : content = content' := Except.ok.inj (hread.symm.trans hread')
  exact ⟨content, m', hread, hwrite, (Option.some.inj h).symm⟩

theorem of_perform_write {file : String} {content : Bytes}
    (h : s.perform? (.write file content) = some s') :
    ∃ m', s.machine.write file content = (none, m') ∧ s' = ⟨m', s.held⟩ := by
  simp only [perform?] at h
  split at h
  case h_2 => cases h
  rename_i m' hwrite
  exact ⟨m', hwrite, (Option.some.inj h).symm⟩

theorem Sound.create {file : String} {time : Nat} (hs : s.Sound)
    (h : s.perform? (.create file time) = some s') : s.Performed (.create file time) s' := by
  obtain ⟨content, m', hread, hwrite, rfl⟩ := of_perform_create h
  obtain ⟨hpath, hfits, hlimit, hedit⟩ := Machine.of_write_eq_none hwrite
  have hkept := hs.of_touchesOnly hedit.touchesOnly hlimit
  obtain ⟨p, hheld⟩ := Disk.exists_holdsAt_of_read hread
  -- the new backup is the last one
  have hnew : Held.Tracked ⟨⟨file, Backup.pathAt file time⟩, time, content⟩ m' :=
    ⟨rfl, hedit.touchesOnly.leadsToFile hheld.leadsToFile, hedit.touchesOnly.leadsToFile hpath,
      hlimit ▸ hfits⟩
  have hnewIntact : Held.Intact ⟨⟨file, Backup.pathAt file time⟩, time, content⟩ m' := by
    obtain ⟨q, hq, -⟩ := hpath
    exact (hedit.read_iff hq content).mpr rfl
  refine ⟨⟨hkept.rooted, ?_⟩, fun _ _ => hedit.touchesOnly.locate_eq_ok_iff, fun hintact => ?_⟩
  · intro g hg
    rcases List.mem_append.mp hg with hold | hlast
    · exact hkept.tracked g hold
    · rwa [List.mem_singleton.mp hlast]
  · have hiff := forall_intact_iff hintact hedit
    simp only [Intact, Spares, List.forall_mem_append, List.forall_mem_singleton, hnewIntact, and_true]
    rw [hiff]
    simp only [hread, Option.some.injEq, Except.ok.injEq]

theorem Sound.restore {i : Nat} (hs : s.Sound) (h : s.perform? (.restore i) = some s') :
    s.Performed (.restore i) s' := by
  obtain ⟨g, hg, rfl⟩ := Option.map_eq_some_iff.mp h
  have hmem : g ∈ s.held := List.mem_of_getElem? hg
  -- the scene stays sound whether or not the backup can be put back
  have htouch := g.backup.touchesOnly_restore s.machine
  refine ⟨hs.of_touchesOnly htouch (g.backup.limit_restore s.machine),
    fun _ _ => htouch.locate_eq_ok_iff, fun hintact => ?_⟩
  have hedit := (hs.tracked g hmem).edited_restore (hintact g hmem)
  have hiff := forall_intact_iff hintact hedit
  simpa only [Intact, Spares, hg, Option.mem_def, Option.some.injEq, forall_eq'] using hiff

theorem Sound.drop {i : Nat} (hs : s.Sound) (h : s.perform? (.drop i) = some s') :
    s.Performed (.drop i) s' := by
  obtain ⟨g, hg, rfl⟩ := Option.map_eq_some_iff.mp h
  have hmem : g ∈ s.held := List.mem_of_getElem? hg
  have hedit : s.machine.disk.Edited (g.backup.drop s.machine).disk g.backup.path none :=
    Disk.edited_remove hs.rooted (hs.tracked g hmem).copy
  have hkept : Sound ⟨g.backup.drop s.machine, s.held⟩ := hs.of_touchesOnly hedit.touchesOnly rfl
  refine ⟨⟨hkept.rooted, fun h hh => hkept.tracked h (List.mem_of_mem_eraseIdx hh)⟩,
    fun _ _ => hedit.touchesOnly.locate_eq_ok_iff, fun hintact => ?_⟩
  have hiff := forall_intact_iff
    (fun h (hh : h ∈ s.held.eraseIdx i) => hintact h (List.mem_of_mem_eraseIdx hh)) hedit
  simpa only [Intact, Spares, hg, Option.mem_def, Option.some.injEq, forall_eq', reduceCtorEq,
    or_false] using hiff

theorem Sound.write {file : String} {content : Bytes} (hs : s.Sound)
    (h : s.perform? (.write file content) = some s') : s.Performed (.write file content) s' := by
  obtain ⟨m', hwrite, rfl⟩ := of_perform_write h
  obtain ⟨-, -, hlimit, hedit⟩ := Machine.of_write_eq_none hwrite
  refine ⟨hs.of_touchesOnly hedit.touchesOnly hlimit,
    fun _ _ => hedit.touchesOnly.locate_eq_ok_iff, fun hintact => ?_⟩
  have hiff := forall_intact_iff hintact hedit
  simpa only [Intact, Spares, Option.some.injEq] using hiff

/-- **One act** leaves a sound scene sound, and intact backups intact exactly if it spares them. -/
theorem Sound.step {act : Act} (hs : s.Sound) (h : s.perform? act = some s') : s.Performed act s' := by
  cases act with
  | create file time => exact hs.create h
  | restore i => exact hs.restore h
  | drop i => exact hs.drop h
  | write file content => exact hs.write h

/-! ## 4. Whole runs -/

theorem IntactThroughout.intact {acts : List Act} (h : s.IntactThroughout acts) : s.Intact := by
  cases acts with
  | nil => exact h
  | cons act rest => exact h.1

theorem IntactThroughout.of_run {acts : List Act} (hintact : s.IntactThroughout acts)
    (h : s.performAll? acts = some s') : s'.Intact := by
  induction acts generalizing s with
  | nil =>
    obtain rfl := Option.some.inj h
    exact hintact
  | cons act rest ih =>
    obtain ⟨s₁, hact, hrest⟩ := Option.bind_eq_some_iff.mp h
    exact ih (hintact.2 s₁ hact) hrest

theorem Sound.run {acts : List Act} (hs : s.Sound) (h : s.performAll? acts = some s') : s'.Sound := by
  induction acts generalizing s with
  | nil =>
    obtain rfl := Option.some.inj h
    exact hs
  | cons act rest ih =>
    obtain ⟨s₁, hact, hrest⟩ := Option.bind_eq_some_iff.mp h
    exact ih (hs.step hact).sound hrest

/-- **A run** keeps intact backups intact exactly if every act of it spares them. -/
theorem Sound.intactThroughout_iff (hs : s.Sound) (hintact : s.Intact) (acts : List Act) :
    s.IntactThroughout acts ↔ s.SparesThroughout acts := by
  induction acts generalizing s with
  | nil => simp [IntactThroughout, SparesThroughout, hintact]
  | cons act rest ih =>
    simp only [IntactThroughout, SparesThroughout, hintact, true_and]
    refine forall₂_congr fun s₁ hact => ?_
    have hperformed := hs.step hact
    have hiff := hperformed.intact_iff hintact
    constructor
    · intro hrest
      have hintact₁ : s₁.Intact := hrest.intact
      exact ⟨hiff.mp hintact₁, (ih hperformed.sound hintact₁).mp hrest⟩
    · rintro ⟨hspares, hrest⟩
      exact (ih hperformed.sound (hiff.mpr hspares)).mpr hrest

theorem sound_start {m : Machine} (hrooted : m.disk.Rooted) : Sound ⟨m, []⟩ :=
  ⟨hrooted, by simp⟩

/-- **Backups that are held together.**  For every run of backups that are made, put back and dropped, and
of writes in between:

* all backups are intact throughout exactly if every act spares the backups that are held;
* a backup that is held and intact at the end can be put back, and the file has just the content that it had
  when the backup was made;
* two backups that are held have one copy only if they are of one file and were made in one millisecond. -/
theorem intact_iff_spares {m : Machine} (hrooted : m.disk.Rooted) (acts : List Act) :
    (IntactThroughout ⟨m, []⟩ acts ↔ SparesThroughout ⟨m, []⟩ acts) ∧
      ∀ s, performAll? ⟨m, []⟩ acts = some s →
        (∀ h ∈ s.held, h.Intact s.machine → ∃ m', h.backup.restore s.machine = (.ok (), m') ∧
          m'.disk.read h.backup.file = .ok h.content) ∧
        ∀ g ∈ s.held, ∀ h ∈ s.held, ¬s.machine.disk.Apart g.backup.path h.backup.path →
          g.time = h.time ∧ ¬s.machine.disk.Apart g.backup.file h.backup.file := by
  have hstart := sound_start hrooted
  refine ⟨hstart.intactThroughout_iff (by simp [Intact]) acts, fun s hrun => ?_⟩
  have hs := hstart.run hrun
  exact ⟨fun h hh hintact => (hs.tracked h hh).restore hintact,
    fun g hg h hh hmet => (hs.tracked g hg).same_of_not_apart (hs.tracked h hh) hmet⟩

/-! ## 5. Backups made at different times -/

end Scene

/-- The file and the time of the backup that an act makes. -/
def Act.made? : Act → Option (String × Nat)
  | .create file time => some (file, time)
  | _ => none

/-- The file that an act names. -/
def Act.file? : Act → Option String
  | .create file _ | .write file _ => some file
  | _ => none

/-- The file and the time of a backup that is held. -/
def Held.made (h : Held) : String × Nat := (h.backup.file, h.time)

namespace Scene

variable {s s' : Scene}

/-- Backups come from acts that make them, and keep their order. -/
theorem held_of_perform {act : Act} (h : s.perform? act = some s') :
    (s'.held.map Held.made).Sublist (s.held.map Held.made ++ act.made?.toList) := by
  cases act with
  | create file time =>
    obtain ⟨content, m', -, -, rfl⟩ := of_perform_create h
    simp [Held.made, Act.made?]
  | restore i =>
    obtain ⟨g, -, rfl⟩ := Option.map_eq_some_iff.mp h
    simp [Act.made?]
  | drop i =>
    obtain ⟨g, -, rfl⟩ := Option.map_eq_some_iff.mp h
    simpa [Act.made?] using (List.eraseIdx_sublist s.held i).map Held.made
  | write file content =>
    obtain ⟨m', -, rfl⟩ := of_perform_write h
    simp [Act.made?]

/-- The backups are made at different times, and none of the files is a copy. -/
structure Distinct (d : Disk) (made : List (String × Nat)) (files : List String) : Prop where
  times : (made.map Prod.snd).Nodup
  apart : ∀ b ∈ made, ∀ file ∈ files, d.Apart (Backup.pathAt b.1 b.2) file

theorem Distinct.sublist {d d' : Disk} {made made' : List (String × Nat)} {files : List String}
    (h : Distinct d made files) (hmade : made'.Sublist made)
    (hlocate : ∀ path p, d'.locate path = .ok p ↔ d.locate path = .ok p) : Distinct d' made' files where
  times := h.times.sublist (hmade.map Prod.snd)
  apart b hb file hfile p hp hp' :=
    h.apart b (hmade.subset hb) file hfile p ((hlocate _ _).mp hp) ((hlocate _ _).mp hp')

/-- A backup that is left when another one has gone was made at another time. -/
theorem time_ne_of_mem_eraseIdx {held : List Held} {g h : Held} {i : Nat}
    (hnodup : (held.map Held.time).Nodup) (hg : held[i]? = some g) (hh : h ∈ held.eraseIdx i) :
    h.time ≠ g.time := by
  obtain ⟨j, hne, hj⟩ := List.mem_eraseIdx_iff_getElem?.mp hh
  intro htime
  have hi : i < (held.map Held.time).length := by
    simpa using (List.getElem?_eq_some_iff.mp hg).1
  have hsame : (held.map Held.time)[i]? = (held.map Held.time)[j]? := by simp [hg, hj, htime]
  exact hne ((List.getElem?_inj hi hnodup).mp hsame).symm

/-- **An act on distinct backups** spares those that are held. -/
theorem Sound.spares_of_distinct {act : Act} {files : List String} (hs : s.Sound)
    (h : s.perform? act = some s')
    (hdistinct : Distinct s.machine.disk (s.held.map Held.made ++ act.made?.toList) files)
    (hheld : ∀ h ∈ s.held, h.backup.file ∈ files) (hfile : ∀ file ∈ act.file?, file ∈ files) :
    s.Spares act := by
  -- no copy is at the place of a file
  have hcopies : ∀ h ∈ s.held, ∀ file ∈ files, s.machine.disk.Apart h.backup.path file := by
    intro h hh file hf
    rw [(hs.tracked h hh).path_eq]
    exact hdistinct.apart h.made (List.mem_append_left _ (List.mem_map_of_mem hh)) file hf
  have htimes := hdistinct.times
  rw [List.map_append, List.map_map] at htimes
  cases act with
  | create file time =>
    obtain ⟨content, -, hread, -⟩ := of_perform_create h
    obtain ⟨p, hfile⟩ := Disk.exists_holdsAt_of_read hread
    intro g hg
    refine .inl fun q hq hq' => ?_
    have htracked := hs.tracked g hg
    obtain ⟨p', hp', -⟩ := htracked.file
    obtain ⟨-, htime⟩ :=
      Backup.eq_of_locate_pathAt_eq hp' hfile.locate_eq (htracked.path_eq ▸ hq) hq'
    exact (List.nodup_append.mp htimes).2.2 g.time (List.mem_map_of_mem hg) time
      (List.mem_singleton_self time) htime
  | restore i =>
    exact fun g hg h hh => .inl (hcopies h hh _ (hheld g (List.mem_of_getElem? hg)))
  | drop i =>
    intro g hg h hh
    have hmem := List.mem_of_mem_eraseIdx hh
    refine Classical.byContradiction fun hmet => ?_
    exact time_ne_of_mem_eraseIdx (List.nodup_append.mp htimes).1 hg hh
      ((hs.tracked h hmem).same_of_not_apart (hs.tracked g (List.mem_of_getElem? hg)) hmet).1
  | write file content =>
    exact fun h hh => .inl (hcopies h hh file (hfile file rfl))

theorem Sound.sparesThroughout_of_distinct {acts : List Act} {files : List String} (hs : s.Sound)
    (hdistinct : Distinct s.machine.disk (s.held.map Held.made ++ acts.filterMap Act.made?) files)
    (hheld : ∀ h ∈ s.held, h.backup.file ∈ files)
    (hfiles : ∀ file ∈ acts.filterMap Act.file?, file ∈ files) : s.SparesThroughout acts := by
  induction acts generalizing s with
  | nil => trivial
  | cons act rest ih =>
    intro s₁ hact
    have hmade := held_of_perform hact
    have hperformed := hs.step hact
    have hsplit : (act :: rest).filterMap Act.made? = act.made?.toList ++ rest.filterMap Act.made? := by
      cases act <;> rfl
    rw [hsplit, ← List.append_assoc] at hdistinct
    have hnow : Distinct s.machine.disk (s.held.map Held.made ++ act.made?.toList) files :=
      hdistinct.sublist (List.sublist_append_left _ _) fun _ _ => Iff.rfl
    have hfile : ∀ file ∈ act.file?, file ∈ files := fun file hf =>
      hfiles file (List.mem_filterMap.mpr ⟨act, List.mem_cons_self .., hf⟩)
    refine ⟨hs.spares_of_distinct hact hnow hheld hfile, ih hperformed.sound
      (hdistinct.sublist (hmade.append_right _) hperformed.locate_iff) ?_ ?_⟩
    · -- what is held was held before, or has just been made
      intro h hh
      have hmem := hmade.subset (List.mem_map_of_mem hh)
      rcases List.mem_append.mp hmem with hold | hnew
      · obtain ⟨g, hg, hsame⟩ := List.mem_map.mp hold
        have hname : g.backup.file = h.backup.file := congrArg Prod.fst hsame
        exact hname ▸ hheld g hg
      · refine hfile h.backup.file ?_
        cases act <;> simp_all [Act.made?, Act.file?, Held.made]
    · intro file hf
      obtain ⟨act', hmem, hnames⟩ := List.mem_filterMap.mp hf
      exact hfiles file (List.mem_filterMap.mpr ⟨act', List.mem_cons_of_mem _ hmem, hnames⟩)

/-- **Backups made at different times are intact throughout** every run in which no file that is named is a
copy. -/
theorem intactThroughout_of_distinct {m : Machine} (hrooted : m.disk.Rooted) {acts : List Act}
    (hdistinct : Distinct m.disk (acts.filterMap Act.made?) (acts.filterMap Act.file?)) :
    IntactThroughout ⟨m, []⟩ acts :=
  ((sound_start hrooted).intactThroughout_iff (by simp [Intact]) acts).mpr
    ((sound_start hrooted).sparesThroughout_of_distinct hdistinct (by simp) fun _ h => h)

/-! ## 6. Runs on given files -/

namespace Example

/-- A disk with one file. -/
def start : Scene := ⟨Machine.holding "a.js" "one", []⟩

theorem rooted_start : start.machine.disk.Rooted := by
  intro p hp
  obtain rfl : p = [] := by simpa [start, Machine.holding] using hp
  rfl

/-- Two backups of the file, before and after it is written; the first one is put back. -/
def successive : List Act :=
  [.create "a.js" 5, .write "a.js" (encode "two"), .create "a.js" 6, .restore 0, .drop 1]

/-- The backups are intact throughout, and the one that is left can be put back. -/
theorem successive_intact :
    start.IntactThroughout successive ∧
      (start.performAll? successive).map (fun s => s.held.map Held.content) = some [encode "one"] ∧
      ∀ s, start.performAll? successive = some s → ∀ h ∈ s.held,
        ∃ m', h.backup.restore s.machine = (.ok (), m') ∧ m'.disk.read h.backup.file = .ok h.content := by
  obtain ⟨hiff, hend⟩ := intact_iff_spares rooted_start successive
  have hintact : start.IntactThroughout successive := hiff.mpr (by decide +kernel)
  exact ⟨hintact, by decide +kernel, fun s hrun h hh => (hend s hrun).1 h hh (hintact.of_run hrun h hh)⟩

/-- Two backups of the file in one millisecond.  The second one is dropped, and the first one cannot be
put back. -/
theorem namesakes_lost :
    ∃ s ∈ start.performAll? [.create "a.js" 5, .create "./a.js" 5, .drop 1],
      s.held.map Held.content = [encode "one"] ∧ ¬s.Intact ∧
        s.machine.disk.exists? "a.js.backup.5" = false ∧
        ∀ h ∈ s.held, (h.backup.restore s.machine).1 = .error (.file "a.js" .notFound) := by
  decide +kernel

/-- Two backups of the file in one millisecond, with another content.  The first one is put back, and the
file has the second content. -/
theorem namesakes_overwritten :
    ∃ s ∈ start.performAll?
        [.create "a.js" 5, .write "a.js" (encode "two"), .create "a.js" 5, .restore 0],
      s.held.map Held.content = [encode "one", encode "two"] ∧ ¬s.Intact ∧
        s.machine.disk.read "a.js" = .ok (encode "two") := by
  decide +kernel

end Example

end Scene

end PackageRefs
