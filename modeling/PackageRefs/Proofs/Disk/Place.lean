/-
# Paths keep leading where they led

Reading and writing a file first walks to its place.  A walk only passes through directories, so an
edit of the disk that leaves every directory a directory (`KeepsDirectories`) does not change where
a path leads.  Setting a place to a file and erasing a file are such edits.

The second half is about names.  A path with a name's ending added to it leads to another place than
the path itself, whatever the disk looks like (`locate_append_ne`): the longer path ends in a name
that is neither a dot nor two dots, so it leads one step below the directory in which the shorter
one ends (`exists_parting_of_locate`).
-/
import Mathlib.Tactic.SplitIfs
import PackageRefs.Disk.Basic

namespace PackageRefs.Disk

/-! ## 1. Single places after an edit -/

theorem lookup_filter_ne {p q : Place} (h : q ≠ p) (entries : List (Place × Entry)) :
    (entries.filter fun e => e.1 != p).lookup q = entries.lookup q := by
  induction entries with
  | nil => rfl
  | cons e entries ih =>
    obtain ⟨k, v⟩ := e
    by_cases hk : k = p
    · subst hk
      have hne : (q == k) = false := beq_eq_false_iff_ne.mpr h
      simp [List.lookup_cons, hne, ih]
    · simp only [List.filter_cons, bne_iff_ne, ne_eq, hk, not_false_eq_true, if_true,
        List.lookup_cons, ih]

theorem lookup_filter_self (p : Place) (entries : List (Place × Entry)) :
    (entries.filter fun e => e.1 != p).lookup p = none := by
  induction entries with
  | nil => rfl
  | cons e entries ih =>
    obtain ⟨k, v⟩ := e
    by_cases hk : k = p
    · subst hk
      simp [ih]
    · have hne : (p == k) = false := beq_eq_false_iff_ne.mpr (Ne.symm hk)
      simp [List.lookup_cons, hk, hne, ih]

@[simp] theorem entry?_set_self (d : Disk) (p : Place) (e : Entry) :
    entry? (d.set p e) p = some e := by
  simp [set, entry?]

theorem entry?_set_ne {d : Disk} {p q : Place} {e : Entry} (h : q ≠ p) :
    entry? (d.set p e) q = d.entry? q := by
  have hne : (q == p) = false := beq_eq_false_iff_ne.mpr h
  simp [set, entry?, List.lookup_cons, hne, lookup_filter_ne h]

theorem entry?_erase_ne {d : Disk} {p q : Place} (h : q ≠ p) :
    entry? (d.erase p) q = d.entry? q := by
  simp [erase, entry?, lookup_filter_ne h]

/-- What is erased is gone, but for a directory in which the working directory is. -/
theorem entry?_erase_self (d : Disk) (p : Place) :
    entry? (d.erase p) p = if p.isPrefixOf d.working then some .directory else none := by
  simp [erase, entry?, lookup_filter_self]

/-- Where nothing is, the working directory is not below. -/
theorem not_isPrefixOf_working {d : Disk} {p : Place} (h : d.entry? p = none) :
    p.isPrefixOf d.working = false := by
  unfold entry? at h
  split at h
  · cases h
  · split at h
    · cases h
    · rename_i hprefix
      exact Bool.eq_false_iff.mpr hprefix

/-! ## 2. Walks -/

/-- Everything that is a directory stays one, and the working directory stays the same. -/
structure KeepsDirectories (d d' : Disk) : Prop where
  working_eq : d'.working = d.working
  directory {p : Place} : d.entry? p = some .directory → d'.entry? p = some .directory

theorem KeepsDirectories.trans {d d' d'' : Disk} (h : KeepsDirectories d d')
    (h' : KeepsDirectories d' d'') : KeepsDirectories d d'' :=
  ⟨h'.working_eq.trans h.working_eq, fun hp => h'.directory (h.directory hp)⟩

theorem keepsDirectories_set {d : Disk} {p : Place} {e : Entry}
    (h : d.entry? p ≠ some .directory) : KeepsDirectories d (d.set p e) where
  working_eq := rfl
  directory {q} hq := by
    have hne : q ≠ p := fun hqp => h (hqp ▸ hq)
    rw [entry?_set_ne hne, hq]

theorem keepsDirectories_erase {d : Disk} {p : Place}
    (h : d.entry? p ≠ some .directory) : KeepsDirectories d (d.erase p) where
  working_eq := rfl
  directory {q} hq := by
    have hne : q ≠ p := fun hqp => h (hqp ▸ hq)
    rw [entry?_erase_ne hne, hq]

/-- The place one part further along a path; a name that is too long leads nowhere. -/
def step? (p : Place) (part : List Char) : Option Place :=
  if part.isEmpty || part == ['.'] then some p
  else if part == ['.', '.'] then some p.dropLast
  else if longestName < (String.ofList part).utf8ByteSize then none
  else some (p ++ [String.ofList part])

/-- One step of a walk: out of a directory, and along one part. -/
theorem walk_cons_eq_ok_iff {d : Disk} {p q : Place} {part : List Char}
    {rest : List (List Char)} :
    d.walk p (part :: rest) = .ok q ↔
      d.entry? p = some .directory ∧ ∃ r, step? p part = some r ∧ d.walk r rest = .ok q := by
  rw [walk, step?]
  cases he : d.entry? p with
  | none => simp
  | some e =>
    cases e with
    | file content program => simp
    | directory => split_ifs <;> simp [*]

theorem walk_of_keepsDirectories {d d' : Disk} (h : KeepsDirectories d d') {p q : Place}
    {parts : List (List Char)} (hw : d.walk p parts = .ok q) : d'.walk p parts = .ok q := by
  induction parts generalizing p with
  | nil => exact hw
  | cons part rest ih =>
    obtain ⟨hp, r, hr, hrest⟩ := walk_cons_eq_ok_iff.mp hw
    exact walk_cons_eq_ok_iff.mpr ⟨h.directory hp, r, hr, ih hrest⟩

theorem walk_append {d : Disk} {p q : Place} {init rest : List (List Char)}
    (h : d.walk p (init ++ rest) = .ok q) :
    ∃ r, d.walk p init = .ok r ∧ d.walk r rest = .ok q := by
  induction init generalizing p with
  | nil => exact ⟨p, rfl, h⟩
  | cons part init ih =>
    obtain ⟨hp, r, hr, hrest⟩ := walk_cons_eq_ok_iff.mp h
    obtain ⟨t, ht, hq⟩ := ih hrest
    exact ⟨t, walk_cons_eq_ok_iff.mpr ⟨hp, r, hr, ht⟩, hq⟩

/-- **A path leads where it led** as long as directories stay. -/
theorem locate_of_keepsDirectories {d d' : Disk} (h : KeepsDirectories d d') {path : String}
    {p : Place} (hl : d.locate path = .ok p) : d'.locate path = .ok p := by
  simp only [locate] at hl ⊢
  split at hl
  · simp at hl
  · rename_i hempty
    rw [if_neg hempty, h.working_eq]
    exact walk_of_keepsDirectories h hl

/-! ## 3. Longer names -/

theorem splitPath_of_not_mem {s : List Char} (hs : '/' ∉ s) : splitPath s = [s] := by
  induction s with
  | nil => rfl
  | cons c s ih =>
    simp only [List.mem_cons, not_or] at hs
    have hc : (c == '/') = false := beq_eq_false_iff_ne.mpr (Ne.symm hs.1)
    simp [splitPath, hc, ih hs.2]

/-- What is added to a path without a slash is added to the path's last part. -/
theorem splitPath_append {s : List Char} (hs : '/' ∉ s) (cs : List Char) :
    ∃ init last, splitPath cs = init ++ [last] ∧ splitPath (cs ++ s) = init ++ [last ++ s] := by
  induction cs with
  | nil => exact ⟨[], [], rfl, splitPath_of_not_mem hs⟩
  | cons c cs ih =>
    obtain ⟨init, last, h1, h2⟩ := ih
    by_cases hc : (c == '/') = true
    · exact ⟨[] :: init, last, by simp [splitPath, hc, h1], by simp [splitPath, hc, h2]⟩
    · cases init with
      | nil => exact ⟨[], c :: last, by simp [splitPath, hc, h1], by simp [splitPath, hc, h2]⟩
      | cons p init =>
        exact ⟨(c :: p) :: init, last, by simp [splitPath, hc, h1], by simp [splitPath, hc, h2]⟩

/-- A long part is a name, and a step along it goes down. -/
theorem step?_of_long {p r : Place} {part : List Char} (hlong : 2 < part.length)
    (h : step? p part = some r) : r = p ++ [String.ofList part] := by
  have h1 : (part.isEmpty || part == ['.']) = false := by
    match part, hlong with
    | _ :: _ :: _ :: _, _ => simp
  have h2 : (part == ['.', '.']) = false := by
    match part, hlong with
    | _ :: _ :: _ :: _, _ => simp
  simp only [step?, h1, h2, Bool.false_eq_true, if_false] at h
  split_ifs at h
  exact (Option.some.inj h).symm

/-- A step stays, goes up, or goes down to the name of the part. -/
theorem step?_cases {p r : Place} {part : List Char} (h : step? p part = some r) :
    r = p ∨ r = p.dropLast ∨ r = p ++ [String.ofList part] := by
  simp only [step?] at h
  split_ifs at h
  · exact .inl (Option.some.inj h).symm
  · exact .inr (.inl (Option.some.inj h).symm)
  · exact .inr (.inr (Option.some.inj h).symm)

/-- What a path leads to is found by walking along its parts. -/
theorem walk_of_locate {d : Disk} {path : String} {p : Place} (h : d.locate path = .ok p) :
    path.toList ≠ [] ∧
      d.walk (if isAbsolute path then [] else d.working) (splitPath path.toList) = .ok p := by
  simp only [locate] at h
  split at h
  · simp at h
  · rename_i hempty
    exact ⟨by simpa using hempty, h⟩

/-- A path and the path with an ending added to it part in one directory.  The ending needs to be long
enough that the last part cannot be one or two dots. -/
theorem exists_parting_of_locate {d : Disk} {path ending : String} {p q : Place}
    (hslash : '/' ∉ ending.toList) (hlong : 2 < ending.toList.length)
    (hp : d.locate path = .ok p) (hq : d.locate (path ++ ending) = .ok q) :
    ∃ r last, d.walk r [last] = .ok p ∧ q = r ++ [String.ofList (last ++ ending.toList)] := by
  obtain ⟨init, last, h1, h2⟩ := splitPath_append hslash path.toList
  obtain ⟨hne, hp⟩ := walk_of_locate hp
  obtain ⟨-, hq⟩ := walk_of_locate hq
  have hstart : isAbsolute (path ++ ending) = isAbsolute path := by
    obtain ⟨c, r, hcr⟩ := List.exists_cons_of_ne_nil hne
    simp [isAbsolute, hcr]
  rw [hstart, String.toList_append, h2] at hq
  rw [h1] at hp
  obtain ⟨r, hr, hp⟩ := walk_append hp
  obtain ⟨r', hr', hq⟩ := walk_append hq
  obtain rfl : r = r' := Except.ok.inj (hr.symm.trans hr')
  obtain ⟨-, u, hu, hq⟩ := walk_cons_eq_ok_iff.mp hq
  obtain rfl : u = q := Except.ok.inj hq
  exact ⟨r, last, hp, step?_of_long (by simp only [List.length_append]; omega) hu⟩

/-- **A path with a longer name leads elsewhere.** -/
theorem locate_append_ne {d : Disk} {path ending : String} {p q : Place}
    (hslash : '/' ∉ ending.toList) (hlong : 2 < ending.toList.length)
    (hp : d.locate path = .ok p) (hq : d.locate (path ++ ending) = .ok q) : p ≠ q := by
  obtain ⟨r, last, hp, rfl⟩ := exists_parting_of_locate hslash hlong hp hq
  obtain ⟨-, t, ht, hp⟩ := walk_cons_eq_ok_iff.mp hp
  obtain rfl : t = p := Except.ok.inj hp
  intro h
  have hlen := congrArg List.length h
  rcases step?_cases ht with rfl | rfl | rfl
  · simp at hlen
  · simp only [List.length_dropLast, List.length_append, List.length_singleton] at hlen
    omega
  · -- both go down one step from the same directory, along different names
    have hname := List.append_cancel_left h
    simp only [List.cons.injEq, and_true] at hname
    have hchars := congrArg String.toList hname
    rw [String.toList_ofList, String.toList_ofList] at hchars
    have hends := congrArg List.length hchars
    rw [List.length_append] at hends
    omega

end PackageRefs.Disk
