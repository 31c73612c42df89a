/-
# The nearest configuration

The style of a file should come from the innermost directory that contains the file and has a
configuration, and in that directory from the first of the names that are tried (`IsNearestStyle`).

What is searched are the directories that the path of the file passes through, the last one first
(`isFoundStyle_styleOf`).  Every directory that contains the file is one of them, so nothing is missed, and
a file has the default style only if none of them has a configuration.  But a path may pass through a
directory and leave it again by `..`.  So the style is the nearest one exactly if the first directory that
is found contains the file (`styleOf_nearest_iff`), as it does for every path without `..`.
-/
import Mathlib.Data.List.Find
import PackageRefs.Format.Style
import PackageRefs.Proofs.Disk.Ancestor

namespace PackageRefs.Format

open PackageRefs.Disk PackageRefs.Package PackageRefs.Text

variable {disk : Disk} {file path : String} {place directory : Place}

/-! ## 1. The configuration of a directory -/

/-- The names under which a configuration is looked for, in the order in which they are tried. -/
def candidateNames : List String := configurationNames ++ [manifestName]

/-- The directory has a configuration under the name: a file, and not just any manifest. -/
def configures (disk : Disk) (directory : Place) (name : String) : Bool :=
  match disk.entry? (directory ++ [name]) with
  | some (.file content _) => name != manifestName || (decode? content).any configuresFormatter
  | _ => false

/-- The name of the configuration that counts in a directory. -/
def configurationAt? (disk : Disk) (directory : Place) : Option String :=
  candidateNames.find? (configures disk directory)

/-- The directory has a configuration. -/
def isConfigured (disk : Disk) (directory : Place) : Bool := (configurationAt? disk directory).isSome

theorem isOrdinary_of_mem_candidateNames :
    ∀ name ∈ candidateNames, IsOrdinary name ∧ name.utf8ByteSize ≤ longestName := by
  decide

theorem ne_manifestName_of_mem : ∀ name ∈ configurationNames, name ≠ manifestName := by
  decide

theorem isFile_eq_configures {name : String} (hname : name ≠ manifestName)
    (h : disk.locate path = .ok (directory ++ [name])) : disk.isFile path = configures disk directory name := by
  unfold isFile lookup configures
  rw [h]
  rcases he : disk.entry? (directory ++ [name]) with _ | (_ | _) <;> simp [hname, he]

theorem isConfiguringManifest_eq_configures (h : disk.locate path = .ok (directory ++ [manifestName])) :
    isConfiguringManifest disk path = configures disk directory manifestName := by
  unfold isConfiguringManifest readText Disk.read lookup configures
  rw [h]
  rcases he : disk.entry? (directory ++ [manifestName]) with _ | (_ | ⟨content, _⟩)
  · simp [he]
  · simp [he]
  · cases hcontent : decode? content <;> simp [he, hcontent]

/-- The configuration that is found through the path of a directory is the one that counts in it. -/
theorem configurationIn_eq (h : disk.locate path = .ok directory)
    (hdirectory : disk.entry? directory = some .directory) :
    configurationIn disk path = (configurationAt? disk directory).map (join path) := by
  have hlocate : ∀ name ∈ candidateNames, disk.locate (join path name) = .ok (directory ++ [name]) := by
    intro name hname
    obtain ⟨hordinary, hshort⟩ := isOrdinary_of_mem_candidateNames name hname
    exact locate_join hordinary hshort h hdirectory
  have hnamed : (configurationNames.map (join path)).find? disk.isFile =
      (configurationNames.find? (configures disk directory)).map (join path) := by
    rw [List.find?_map]
    refine congrArg _ (List.find?_congr fun name hname => ?_)
    exact isFile_eq_configures (ne_manifestName_of_mem name hname)
      (hlocate name (List.mem_append_left _ hname))
  have hmanifest : isConfiguringManifest disk (join path manifestName) =
      configures disk directory manifestName :=
    isConfiguringManifest_eq_configures (hlocate manifestName (by decide))
  unfold configurationIn configurationAt? candidateNames
  rw [hnamed, List.find?_append]
  cases configurationNames.find? (configures disk directory) with
  | some name => rfl
  | none =>
    cases hm : configures disk directory manifestName <;> simp [hmanifest, hm]

/-! ## 2. The paths of the directories -/

theorem leadingSlashes_cases (file : String) : leadingSlashes file = "/" ∨ leadingSlashes file = "//" := by
  unfold leadingSlashes
  split
  · exact .inl rfl
  · exact .inr rfl
  · exact .inl rfl

theorem locate_of_slash {rest : List Char} (h : path.toList = '/' :: rest) :
    disk.locate path = disk.walk [] ([] :: splitPath rest) := by
  have hnonempty : path.isEmpty = false := by
    rw [← Bool.not_eq_true, String.isEmpty_iff, ← String.toList_eq_nil_iff, h]
    exact List.cons_ne_nil _ _
  have habsolute : isAbsolute path = true := by
    rw [isAbsolute, h]
    rfl
  rw [locate, hnonempty, habsolute, h]
  rfl

/-- The path of a directory leads to it. -/
theorem locate_directoryPath {slashes : String} {names : List String} (hslashes : slashes = "/" ∨ slashes = "//")
    (hnames : ∀ name ∈ names, '/' ∉ name.toList) (hwalk : disk.walk [] (names.map String.toList) = .ok directory)
    (hdirectory : disk.entry? directory = some .directory) :
    disk.locate (directoryPath slashes names) = .ok directory := by
  -- a slash at the start stands for an empty part, along which the walk stays at the top
  have hstay : ∀ {parts}, disk.entry? [] = some .directory → disk.walk [] parts = .ok directory →
      disk.walk [] ([] :: parts) = .ok directory :=
    fun htop hparts => walk_cons_eq_ok_iff.mpr ⟨htop, [], rfl, hparts⟩
  cases names with
  | nil =>
    obtain rfl : [] = directory := Except.ok.inj hwalk
    have hpath : (directoryPath slashes []).toList = '/' :: [] := by simp [directoryPath]
    rw [locate_of_slash hpath]
    exact hstay hdirectory (hstay hdirectory hwalk)
  | cons first names =>
    have htop : disk.entry? [] = some .directory := (walk_cons_eq_ok_iff.mp hwalk).1
    rw [← splitPath_intercalate hnames] at hwalk
    generalize htext : String.intercalate "/" (first :: names) = text at hwalk
    rcases hslashes with rfl | rfl
    · have hpath : (directoryPath "/" (first :: names)).toList = '/' :: text.toList := by
        simp [directoryPath, ← htext]
      rw [locate_of_slash hpath]
      exact hstay htop hwalk
    · have hpath : (directoryPath "//" (first :: names)).toList = '/' :: '/' :: text.toList := by
        simp [directoryPath, ← htext]
      rw [locate_of_slash hpath]
      exact hstay htop (hstay htop hwalk)

/-! ## 3. What is found -/

/-- The style comes from the first of the directories that has a configuration, and in it from the first name
that counts. -/
inductive IsFoundStyle (disk : Disk) (directories : List Place) : Style → Prop
  | project {directory : Place} {name path : String}
      (first : directories.find? (isConfigured disk) = some directory)
      (named : configurationAt? disk directory = some name)
      (leads : disk.locate path = .ok (directory ++ [name])) : IsFoundStyle disk directories (.project path)
  | defaults (none : directories.find? (isConfigured disk) = none) : IsFoundStyle disk directories .defaults

theorem IsFoundStyle.cons {directories : List Place} {style : Style}
    (h : IsFoundStyle disk directories style) (hnone : configurationAt? disk directory = none) :
    IsFoundStyle disk (directory :: directories) style := by
  have hskip : (directory :: directories).find? (isConfigured disk) = directories.find? (isConfigured disk) :=
    List.find?_cons_of_neg (by simp [isConfigured, hnone])
  cases h with
  | project first named leads => exact .project (hskip.trans first) named leads
  | defaults none => exact .defaults (hskip.trans none)

/-- Searching directories through paths that lead to them, by induction on the list. -/
theorem isFoundStyle_of_findSome? {α : Type} {above : List α} {pathOf : α → String} {placeOf : α → Place}
    (h : ∀ a ∈ above, disk.locate (pathOf a) = .ok (placeOf a) ∧ disk.entry? (placeOf a) = some .directory) :
    IsFoundStyle disk (above.map placeOf)
      (match above.findSome? fun a => configurationIn disk (pathOf a) with
        | some path => .project path
        | none => .defaults) := by
  induction above with
  | nil => exact .defaults rfl
  | cons a above ih =>
    obtain ⟨⟨hlocate, hdirectory⟩, hrest⟩ := List.forall_mem_cons.mp h
    rw [List.findSome?_cons, configurationIn_eq hlocate hdirectory, List.map_cons]
    cases hname : configurationAt? disk (placeOf a) with
    | none => exact (ih hrest).cons hname
    | some name =>
      have hmem : name ∈ candidateNames := List.mem_of_find?_eq_some hname
      obtain ⟨hordinary, hshort⟩ := isOrdinary_of_mem_candidateNames name hmem
      exact .project (List.find?_cons_of_pos (by simp [isConfigured, hname])) hname
        (locate_join hordinary hshort hlocate hdirectory)

/-- **The directories that the path passes through are searched**, the last one first. -/
theorem isFoundStyle_styleOf (hsettled : disk.Settled) (hpath : disk.locate file = .ok place) :
    IsFoundStyle disk (disk.passed file) (styleOf disk file) := by
  have hcomponents : ∀ name ∈ absoluteNames disk.working file, IsComponent name :=
    fun _ => hsettled.isComponent
  have hnonempty : file.isEmpty = false := by
    simpa using (walk_of_locate hpath).1
  unfold styleOf directoriesOf passed
  rw [hnonempty, if_neg Bool.false_ne_true, List.findSome?_map]
  refine isFoundStyle_of_findSome? fun names hnames => ?_
  obtain ⟨habove, hne⟩ := mem_directoriesAbove.mp hnames
  obtain ⟨hto, hdirectory⟩ := walk_of_prefix hcomponents (hsettled.walk_absoluteNames hpath) habove
  exact ⟨locate_directoryPath (leadingSlashes_cases file)
    (fun name hname => (hcomponents name (habove.subset hname)).slash_not_mem) hto (hdirectory hne),
    hdirectory hne⟩

/-! ## 4. The nearest one -/

/-- The style comes from the innermost directory that contains the place and has a configuration, and in it
from the first name that counts.  It is the default style if there is no such directory. -/
inductive IsNearestStyle (disk : Disk) (place : Place) : Style → Prop
  | project {directory : Place} {name path : String} (contains : Contains directory place)
      (innermost : ∀ other, Contains other place → isConfigured disk other = true → other <+: directory)
      (named : configurationAt? disk directory = some name)
      (leads : disk.locate path = .ok (directory ++ [name])) : IsNearestStyle disk place (.project path)
  | defaults (none : ∀ other, Contains other place → isConfigured disk other = false) :
      IsNearestStyle disk place .defaults

/-- What is found is the nearest exactly if what it is found in contains the place. -/
theorem IsFoundStyle.isNearestStyle_iff {style : Style} (h : IsFoundStyle disk (disk.passed file) style)
    (hsettled : disk.Settled) (hpath : disk.locate file = .ok place) :
    IsNearestStyle disk place style ↔
      ∀ directory, (disk.passed file).find? (isConfigured disk) = some directory → Contains directory place := by
  cases h with
  | @project directory name path first named leads =>
    simp only [first, Option.some.injEq, forall_eq']
    constructor
    · intro hnearest
      cases hnearest with
      | @project nearest name' _ contains innermost named' leads' =>
        obtain ⟨rfl, -⟩ := List.append_inj' (Except.ok.inj (leads.symm.trans leads')) rfl
        exact contains
    · intro hcontains
      refine .project hcontains (fun other hother hconfigured => ?_) named leads
      exact hcontains.prefix_of_find?_passed first hother hconfigured hsettled hpath
  | defaults none =>
    refine iff_of_true (.defaults fun other hother => ?_) (by simp [none])
    have hmem := hother.mem_passed hsettled hpath
    exact Bool.eq_false_iff.mpr (List.find?_eq_none.mp none other hmem)

/-- **The style of a file is the nearest one** exactly if the first directory with a configuration, among those
that its path passes through, contains the file. -/
theorem styleOf_nearest_iff (hsettled : disk.Settled) (hpath : disk.locate file = .ok place) :
    IsFoundStyle disk (disk.passed file) (styleOf disk file) ∧
      (IsNearestStyle disk place (styleOf disk file) ↔
        ∀ directory, (disk.passed file).find? (isConfigured disk) = some directory → Contains directory place) ∧
      (".." ∉ pathNames file → IsNearestStyle disk place (styleOf disk file)) := by
  have hfound := isFoundStyle_styleOf hsettled hpath
  refine ⟨hfound, hfound.isNearestStyle_iff hsettled hpath, fun hdots => ?_⟩
  refine (hfound.isNearestStyle_iff hsettled hpath).mpr fun directory hfirst => ?_
  exact contains_of_mem_passed hdots hsettled hpath (List.mem_of_find?_eq_some hfirst)

namespace Example

/-- A project with a subdirectory that has two configurations; the manifest in it is one of them. -/
def project : Disk where
  entries := [
    (["w", "a.js"], .file [] none),
    (["w", "s"], .directory),
    (["w", "s", "b.js"], .file [] none),
    (["w", "s", ".prettierrc"], .file [] none),
    (["w", "s", "package.json"], .file (encode "\x7b\"prettier\": 1\x7d") none),
    (["w", "s", "t"], .directory)]
  working := ["w"]

theorem settled_project : project.Settled where
  rooted := by
    intro p hp
    have habove : p <+: [] ++ ["w"] := List.isPrefixOf_iff_prefix.mp hp
    rcases List.prefix_concat_iff.mp habove with rfl | htop
    · rfl
    · obtain rfl := List.prefix_nil.mp htop
      rfl
  ordinary := by decide
  short := by decide

/-- A path through a subdirectory of the one with the configurations.  The manifest is the last name that is
tried. -/
theorem detour_nearest :
    project.locate "s/t/../b.js" = .ok ["w", "s", "b.js"] ∧
      configures project ["w", "s"] manifestName = true ∧
      styleOf project "s/t/../b.js" = .project "/w/s/t/../.prettierrc" ∧
      IsNearestStyle project ["w", "s", "b.js"] (styleOf project "s/t/../b.js") := by
  have hpath : project.locate "s/t/../b.js" = .ok ["w", "s", "b.js"] := by decide +kernel
  have hfirst : (project.passed "s/t/../b.js").find? (isConfigured project) = some ["w", "s"] := by
    decide +kernel
  refine ⟨hpath, by decide +kernel, by decide +kernel, ?_⟩
  refine (styleOf_nearest_iff settled_project hpath).2.1.mpr fun directory hdirectory => ?_
  obtain rfl := Option.some.inj (hfirst.symm.trans hdirectory)
  decide

/-- **A path through a directory that does not contain the file** gives the file the style of that
directory. -/
theorem stray_not_nearest :
    project.Settled ∧ project.HoldsAt "s/../a.js" ["w", "a.js"] [] ∧
      styleOf project "s/../a.js" = .project "/w/s/.prettierrc" ∧
      ¬IsNearestStyle project ["w", "a.js"] (styleOf project "s/../a.js") := by
  have hpath : project.locate "s/../a.js" = .ok ["w", "a.js"] := by decide +kernel
  refine ⟨settled_project, ⟨hpath, none, by decide⟩, by decide +kernel, fun hnearest => ?_⟩
  have hcontains := ((isFoundStyle_styleOf settled_project hpath).isNearestStyle_iff settled_project hpath).mp
    hnearest ["w", "s"] (by decide +kernel)
  exact absurd hcontains (by decide)

end Example

end PackageRefs.Format
