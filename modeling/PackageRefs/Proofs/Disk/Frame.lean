/-
# What an edit of the disk leaves alone

`TouchesOnly may d d'` says how the disk `d'` differs from `d`: at the places in question at most, and
no directory has come or gone.  Then every path leads where it led, in both directions, and a path that
leads to none of the places finds what it found (`TouchesOnly.sameAt`).

A write and a copy touch the place that their path leads to, and no other.  A place that was free before an
edit is free again when what came to it is removed (`TouchesOnly.removed`), as if it had not been touched.

`Edited d d' path after?` also says what is at the one place afterwards.  With it, what a file holds after an
edit of another path is a question of where the two paths lead (`Edited.read_eq_ok_iff`).
-/
import PackageRefs.Proofs.Disk.File

namespace PackageRefs.Disk

open PackageRefs.Text

variable {d d' d'' : Disk} {may : Place → Prop}

/-! ## 1. Where two disks differ -/

/-- The disks differ at most at the places in question, and have the same directories. -/
structure TouchesOnly (may : Place → Prop) (d d' : Disk) : Prop where
  working_eq : d'.working = d.working
  entry?_cases (p : Place) : d'.entry? p = d.entry? p ∨
    (may p ∧ d.entry? p ≠ some .directory ∧ d'.entry? p ≠ some .directory)

theorem TouchesOnly.refl (may : Place → Prop) (d : Disk) : TouchesOnly may d d :=
  ⟨rfl, fun _ => .inl rfl⟩

theorem TouchesOnly.trans (h : TouchesOnly may d d') (h' : TouchesOnly may d' d'') :
    TouchesOnly may d d'' := by
  refine ⟨h'.working_eq.trans h.working_eq, fun p => ?_⟩
  rcases h.entry?_cases p with heq | ⟨hmay, hbefore, hbetween⟩
  · rw [← heq]
    exact h'.entry?_cases p
  · rcases h'.entry?_cases p with heq' | ⟨-, -, hafter⟩
    · exact .inr ⟨hmay, hbefore, heq' ▸ hbetween⟩
    · exact .inr ⟨hmay, hbefore, hafter⟩

theorem TouchesOnly.mono {may' : Place → Prop} (h : TouchesOnly may d d')
    (hmay : ∀ p, may p → may' p) : TouchesOnly may' d d' :=
  ⟨h.working_eq, fun p => (h.entry?_cases p).imp_right fun ⟨hp, hcase⟩ => ⟨hmay p hp, hcase⟩⟩

theorem TouchesOnly.symm (h : TouchesOnly may d d') : TouchesOnly may d' d := by
  refine ⟨h.working_eq.symm, fun p => ?_⟩
  rcases h.entry?_cases p with heq | ⟨hmay, hbefore, hafter⟩
  · exact .inl heq.symm
  · exact .inr ⟨hmay, hafter, hbefore⟩

theorem TouchesOnly.entry?_eq (h : TouchesOnly may d d') {p : Place} (hp : ¬may p) :
    d'.entry? p = d.entry? p :=
  (h.entry?_cases p).resolve_right fun hcase => hp hcase.1

theorem TouchesOnly.keepsDirectories (h : TouchesOnly may d d') : KeepsDirectories d d' where
  working_eq := h.working_eq
  directory {p} hp := by
    rcases h.entry?_cases p with heq | ⟨-, hbefore, -⟩
    · rw [heq, hp]
    · exact absurd hp hbefore

/-- Every path leads where it led, and nowhere else. -/
theorem TouchesOnly.locate_eq_ok_iff (h : TouchesOnly may d d') {path : String} {p : Place} :
    d'.locate path = .ok p ↔ d.locate path = .ok p :=
  ⟨locate_of_keepsDirectories h.symm.keepsDirectories,
    locate_of_keepsDirectories h.keepsDirectories⟩

/-- Two edits, each where the path leads when it begins, are one edit where the path leads. -/
theorem TouchesOnly.trans_locate {file : String}
    (h : TouchesOnly (d.locate file = .ok ·) d d')
    (h' : TouchesOnly (d'.locate file = .ok ·) d' d'') :
    TouchesOnly (d.locate file = .ok ·) d d'' := by
  refine h.trans ?_
  have hplaces : (fun p => d'.locate file = .ok p) = fun p => d.locate file = .ok p :=
    funext fun _ => propext h.locate_eq_ok_iff
  rwa [hplaces] at h'

/-! ## 2. What a path finds -/

/-- The path finds in both disks the same, or nothing in both. -/
def SameAt (d d' : Disk) (path : String) : Prop :=
  ∀ e, d'.lookup path = .ok e ↔ d.lookup path = .ok e

/-- The paths do not lead to one place. -/
def Apart (d : Disk) (path file : String) : Prop :=
  ∀ p, d.locate path = .ok p → d.locate file ≠ .ok p

theorem lookup_eq_ok_iff {path : String} {e : Entry} :
    d.lookup path = .ok e ↔ ∃ p, d.locate path = .ok p ∧ d.entry? p = some e := by
  unfold lookup
  cases d.locate path with
  | error _ => simp
  | ok p => cases he : d.entry? p <;> simp [he]

theorem exists?_eq_false_iff {path : String} {p : Place} (hp : d.locate path = .ok p) :
    d.exists? path = false ↔ d.entry? p = none := by
  unfold exists? lookup
  rw [hp]
  cases he : d.entry? p <;> simp [he]

theorem exists?_eq_true_iff {path : String} :
    d.exists? path = true ↔ ∃ e, d.lookup path = .ok e := by
  unfold exists?
  cases d.lookup path <;> simp

theorem SameAt.exists?_eq {path : String} (h : SameAt d d' path) :
    d'.exists? path = d.exists? path := by
  rw [Bool.eq_iff_iff, exists?_eq_true_iff, exists?_eq_true_iff]
  exact exists_congr h

/-- **A path finds what it found** if it leads to no place that may be touched. -/
theorem TouchesOnly.sameAt (h : TouchesOnly may d d') {path : String}
    (hpath : ∀ p, d.locate path = .ok p → ¬may p) : SameAt d d' path := by
  intro e
  rw [lookup_eq_ok_iff, lookup_eq_ok_iff]
  refine exists_congr fun p => ?_
  rw [h.locate_eq_ok_iff]
  exact and_congr_right fun hp => by rw [h.entry?_eq (hpath p hp)]

/-- A path that leads to one place in both disks finds the same exactly if the place holds the same. -/
theorem sameAt_iff_entry?_eq {path : String} {p : Place} (hp : d.locate path = .ok p)
    (hp' : d'.locate path = .ok p) : SameAt d d' path ↔ d'.entry? p = d.entry? p := by
  have hfound : ∀ c : Disk, c.locate path = .ok p → ∀ e,
      c.lookup path = .ok e ↔ c.entry? p = some e := by
    intro c hc e
    rw [lookup_eq_ok_iff]
    simp [hc]
  unfold SameAt
  simp only [hfound d hp, hfound d' hp']
  exact Option.ext_iff.symm

/-! ## 3. Writing and copying -/

theorem touchesOnly_set {p : Place} {content : Bytes} {program : Option Program}
    (hmay : may p) (hp : d.entry? p ≠ some .directory) :
    TouchesOnly may d (d.set p (.file content program)) := by
  refine ⟨rfl, fun q => ?_⟩
  by_cases hq : q = p
  · subst hq
    exact .inr ⟨hmay, hp, by simp⟩
  · exact .inl (entry?_set_ne hq)

theorem touchesOnly_write (d : Disk) (limit : Option Nat) (path : String) (bytes : Bytes) :
    TouchesOnly (d.locate path = .ok ·) d (d.write limit path bytes).1 := by
  rcases write_cases d limit path bytes with ⟨e, hw⟩ | ⟨p, program, hl, hp, hw⟩
  · rw [hw]
    exact .refl _ d
  · rw [hw]
    exact touchesOnly_set hl hp

theorem touchesOnly_copy (d : Disk) (limit : Option Nat) (source target : String) :
    TouchesOnly (d.locate target = .ok ·) d (d.copy limit source target).1 := by
  rcases copy_cases d limit source target with ⟨e, hc⟩ | ⟨p, content, -, hc⟩
  · rw [hc]
    exact .refl _ d
  · rw [hc]
    exact touchesOnly_write d limit target content

/-! ## 4. Removing what came to a free place -/

/-- **What came to a free place goes again.**  Whatever an edit did at a place that was free, removing what
is there leaves nothing, and the edit and the removal together touch the other places only. -/
theorem TouchesOnly.removed (h : TouchesOnly may d d') {path : String} {p : Place}
    (hp : d.locate path = .ok p) (hfree : d.entry? p = none) :
    TouchesOnly (fun q => may q ∧ q ≠ p) d (d'.remove path) ∧ entry? (d'.remove path) p = none := by
  have hp' : d'.locate path = .ok p := h.locate_eq_ok_iff.mpr hp
  -- all that is needed of the removal: the place is free, and the others are as the edit left them
  suffices hremoved : (d'.remove path).working = d'.working ∧ entry? (d'.remove path) p = none ∧
      ∀ q, q ≠ p → entry? (d'.remove path) q = d'.entry? q by
    obtain ⟨hworking, hnone, hothers⟩ := hremoved
    refine ⟨⟨hworking.trans h.working_eq, fun q => ?_⟩, hnone⟩
    by_cases hq : q = p
    · subst hq
      exact .inl (hnone.trans hfree.symm)
    · rw [hothers q hq]
      exact (h.entry?_cases q).imp_right fun ⟨hmay, hcase⟩ => ⟨⟨hmay, hq⟩, hcase⟩
  unfold remove
  rw [hp']
  dsimp only
  split
  · refine ⟨rfl, ?_, fun q hq => entry?_erase_ne hq⟩
    rw [entry?_erase_self, h.working_eq, not_isPrefixOf_working hfree]
    rfl
  · rename_i hfile
    refine ⟨rfl, ?_, fun _ _ => rfl⟩
    rcases h.entry?_cases p with heq | ⟨-, -, hdirectory⟩
    · rw [heq, hfree]
    · cases he : d'.entry? p with
      | none => rfl
      | some e =>
        cases e with
        | directory => exact absurd he hdirectory
        | file content program => exact absurd he (hfile content program)

/-! ## 5. One file changes -/

/-- The path leads to a place for a file. -/
def LeadsToFile (d : Disk) (path : String) : Prop :=
  ∃ p, d.locate path = .ok p ∧ d.entry? p ≠ some .directory

theorem HoldsAt.leadsToFile {path : String} {p : Place} {content : Bytes}
    (h : d.HoldsAt path p content) : d.LeadsToFile path :=
  ⟨p, h.locate_eq, h.ne_directory⟩

theorem TouchesOnly.leadsToFile (h : TouchesOnly may d d') {path : String}
    (hpath : d.LeadsToFile path) : d'.LeadsToFile path := by
  obtain ⟨p, hp, hdir⟩ := hpath
  refine ⟨p, h.locate_eq_ok_iff.mpr hp, ?_⟩
  rcases h.entry?_cases p with heq | ⟨-, -, hafter⟩
  · rwa [heq]
  · exact hafter

/-- The working directory is there, and so is all that is above it. -/
def Rooted (d : Disk) : Prop := ∀ p, p.isPrefixOf d.working = true → d.entry? p = some .directory

theorem Rooted.of_keepsDirectories (h : d.Rooted) (hd : KeepsDirectories d d') : d'.Rooted :=
  fun p hp => hd.directory (h p (hd.working_eq ▸ hp))

/-- Where the path leads there is afterwards a file with the content, or nothing, and all else is as it
was. -/
structure Edited (d d' : Disk) (path : String) (after? : Option Bytes) : Prop where
  touchesOnly : TouchesOnly (d.locate path = .ok ·) d d'
  read_iff {p : Place} : d.locate path = .ok p →
    ∀ bytes, d'.read path = .ok bytes ↔ after? = some bytes

/-- What a path reads depends on where it leads. -/
theorem read_eq_of_locate {path other : String} {p : Place} (hp : d.locate path = .ok p)
    (hother : d.locate other = .ok p) : d.read path = d.read other := by
  unfold read lookup
  rw [hp, hother]

/-- **A file that was read before** reads as it did exactly if the edit was elsewhere, or left just that
content. -/
theorem Edited.read_eq_ok_iff {path : String} {after? : Option Bytes} (h : Edited d d' path after?)
    {other : String} {bytes : Bytes} (hread : d.read other = .ok bytes) :
    d'.read other = .ok bytes ↔ d.Apart other path ∨ after? = some bytes := by
  obtain ⟨p, hheld⟩ := exists_holdsAt_of_read hread
  by_cases hshared : d.locate path = .ok p
  · have hmet : ¬d.Apart other path := fun hapart => hapart p hheld.locate_eq hshared
    have hsame := read_eq_of_locate (h.touchesOnly.locate_eq_ok_iff.mpr hheld.locate_eq)
      (h.touchesOnly.locate_eq_ok_iff.mpr hshared)
    rw [hsame, h.read_iff hshared bytes]
    simp [hmet]
  · have hkept := hheld.of_keepsDirectories h.touchesOnly.keepsDirectories
      (h.touchesOnly.entry?_eq hshared)
    have hapart : d.Apart other path := by
      intro q hq
      obtain rfl : p = q := Except.ok.inj (hheld.locate_eq.symm.trans hq)
      exact hshared
    simp [hkept.read_eq, hapart]

theorem edited_set {path : String} {p : Place} (content : Bytes) (program : Option Program)
    (hp : d.locate path = .ok p) (hdir : d.entry? p ≠ some .directory) :
    Edited d (d.set p (.file content program)) path (some content) where
  touchesOnly := touchesOnly_set hp hdir
  read_iff _ bytes := by
    rw [(holdsAt_set_self hp hdir).read_eq]
    simp

/-- Deleting what a path for a file leads to leaves nothing there. -/
theorem edited_remove {path : String} (hrooted : d.Rooted) (hpath : d.LeadsToFile path) :
    Edited d (d.remove path) path none := by
  obtain ⟨p, hp, hdir⟩ := hpath
  have hbelow : p.isPrefixOf d.working = false :=
    Bool.eq_false_iff.mpr fun hprefix => hdir (hrooted p hprefix)
  cases he : d.entry? p with
  | none =>
    have hsame : d.remove path = d := by simp [remove, hp, he]
    rw [hsame]
    exact ⟨.refl _ d, fun _ bytes => by simp [read, lookup, hp, he]⟩
  | some e =>
    cases e with
    | directory => exact absurd he hdir
    | file content program =>
      have herased : d.remove path = d.erase p := by simp [remove, hp, he]
      have hnone : entry? (d.erase p) p = none := by simp [entry?_erase_self, hbelow]
      have hp' := locate_of_keepsDirectories (keepsDirectories_erase hdir) hp
      rw [herased]
      refine ⟨⟨rfl, fun q => ?_⟩, fun _ bytes => by simp [read, lookup, hp', hnone]⟩
      by_cases hq : q = p
      · subst hq
        exact .inr ⟨hp, hdir, by simp [hnone]⟩
      · exact .inl (entry?_erase_ne hq)

end PackageRefs.Disk
