/-
# Version lookup stays in the directories of packages

Names come out of scans over arbitrary text, and the filter on them lets more pass than regular names.
Still no name that passes leads a lookup anywhere but below the directories that hold packages.

* The package of any name is one part of a path, or two of which the first starts with `@`
  (`rootChars_cases`).
* The filter accepts a package only if its parts are ordinary (`components_of_plausible`): a letter or a
  digit rules out `.` and `..`, and a second part is a regular name or ends in `js`.
* So a manifest is looked for at a path that leads on from a directory of packages through ordinary
  components (`lookup_confined`), and what stands elsewhere has no influence on the answer
  (`version_congr`, `place_of_candidate`).
-/
import Mathlib.Data.List.Find
import PackageRefs.Package.Lookup
import PackageRefs.Proofs.Disk.Component

namespace PackageRefs.Package

open PackageRefs.Disk PackageRefs.Text

/-! ## 1. The package that a reference names -/

theorem beforeSlash_zero (text : List Char) : beforeSlash 0 text = text.takeWhile (· != '/') := by
  induction text with
  | nil => rfl
  | cons c r ih =>
    by_cases hc : c = '/'
    · simp [beforeSlash, hc]
    · simp [beforeSlash, hc, ih]

theorem slash_not_mem_takeWhile (text : List Char) : '/' ∉ text.takeWhile (· != '/') := by
  intro h
  simpa using List.all_eq_true.mp List.all_takeWhile _ h

/-- The text before the second slash has no slash, or one. -/
theorem beforeSlash_one_cases (text : List Char) :
    '/' ∉ beforeSlash 1 text ∨ ∃ scope bare, '/' ∉ scope ∧ '/' ∉ bare ∧
      beforeSlash 1 text = scope ++ '/' :: bare := by
  induction text with
  | nil => exact .inl (by simp [beforeSlash])
  | cons c r ih =>
    by_cases hc : c = '/'
    · refine .inr ⟨[], r.takeWhile (· != '/'), by simp, slash_not_mem_takeWhile r, ?_⟩
      simp [beforeSlash, hc, beforeSlash_zero]
    · rcases ih with hnone | ⟨scope, bare, hscope, hbare, heq⟩
      · exact .inl (by simp [beforeSlash, hc, hnone, Ne.symm hc])
      · refine .inr ⟨c :: scope, bare, by simp [hscope, Ne.symm hc], hbare, ?_⟩
        simp [beforeSlash, hc, heq]

/-- **The package of a reference** is one part of a path, or two of which the first starts with `@`. -/
theorem rootChars_cases (name : List Char) :
    '/' ∉ rootChars name ∨ ∃ scope bare, '/' ∉ scope ∧ '/' ∉ bare ∧
      rootChars name = '@' :: scope ++ '/' :: bare := by
  unfold rootChars
  split
  · rename_i hhead
    match name, hhead with
    | c :: r, hhead =>
      obtain rfl : c = '@' := by simpa using hhead
      rcases beforeSlash_one_cases r with hnone | ⟨scope, bare, hscope, hbare, heq⟩
      · exact .inl (by simp [beforeSlash, hnone])
      · exact .inr ⟨scope, bare, hscope, hbare, by simp [beforeSlash, heq]⟩
  · rw [beforeSlash_zero]
    exact .inl (slash_not_mem_takeWhile name)

/-! ## 2. Ordinary components -/

theorem isOrdinary_ofList {text : List Char} (hnil : text ≠ []) (hdot : text ≠ ['.'])
    (hdots : text ≠ ['.', '.']) (hslash : '/' ∉ text) : IsOrdinary (String.ofList text) where
  ne_empty h := hnil (by simpa using congrArg String.toList h)
  ne_dot h := hdot (by simpa using congrArg String.toList h)
  ne_dots h := hdots (by simpa using congrArg String.toList h)
  slash_not_mem := by simpa using hslash

/-- A text with a letter or a digit in it is no row of dots. -/
theorem isOrdinary_of_alphanumeric {text : List Char} (hslash : '/' ∉ text)
    (h : text.any isAsciiAlphanumeric = true) : IsOrdinary (String.ofList text) := by
  refine isOrdinary_ofList ?_ ?_ ?_ hslash <;> (rintro rfl; revert h; decide)

/-- A regular name starts with a small letter or a digit. -/
theorem isOrdinary_of_isRegularName {text : List Char} (hslash : '/' ∉ text)
    (h : isRegularName text = true) : IsOrdinary (String.ofList text) := by
  refine isOrdinary_ofList ?_ ?_ ?_ hslash <;> (rintro rfl; revert h; decide)

theorem isScopedName_eq {scope : List Char} (hscope : '/' ∉ scope) (bare : List Char) :
    isScopedName ('@' :: scope ++ '/' :: bare) = (isRegularName scope && isRegularName bare) := by
  have hstays : ∀ c ∈ scope, (c != '/') = true := fun c hc =>
    bne_iff_ne.mpr fun heq => hscope (heq ▸ hc)
  have htake : (scope ++ '/' :: bare).takeWhile (· != '/') = scope := by
    rw [List.takeWhile_append_of_pos hstays]
    simp
  have hdrop : (scope ++ '/' :: bare).dropWhile (· != '/') = '/' :: bare := by
    rw [List.dropWhile_append_of_pos hstays]
    simp
  simp only [List.cons_append, isScopedName, htake, hdrop]

/-- No family's names start with `@`, so one that does is known by its end. -/
theorem getLast?_of_isFamilyName {rest : List Char} (h : isFamilyName ('@' :: rest) = true) :
    ∃ c, ('@' :: rest).getLast? = some c ∧ lowerChar c = 's' := by
  have hstarts : (knownStarts.any fun start =>
      start.toList.isPrefixOf (('@' :: rest).map lowerChar)) = false := by
    have hhead : ('@' :: rest).map lowerChar = '@' :: rest.map lowerChar := rfl
    rw [hhead]
    simp [knownStarts, List.isPrefixOf]
  rw [isFamilyName, hstarts, Bool.false_or, List.any_eq_true] at h
  obtain ⟨tail, htail, hsuffix⟩ := h
  obtain ⟨before, hbefore⟩ := List.isSuffixOf_iff_suffix.mp hsuffix
  have hlast : (('@' :: rest).map lowerChar).getLast? = some 's' := by
    rw [← hbefore]
    simp only [knownEnds, List.mem_cons, List.not_mem_nil, or_false] at htail
    rcases htail with rfl | rfl | rfl <;> simp
  rw [List.getLast?_map] at hlast
  exact Option.map_eq_some_iff.mp hlast

/-- What names a package behind its scope is ordinary: a regular name is, and the name of a family that
has a scope ends in `js`. -/
theorem isOrdinary_bare {scope bare : List Char} (hscope : '/' ∉ scope) (hbare : '/' ∉ bare)
    (h : (isRegularName ('@' :: scope ++ '/' :: bare) || isScopedName ('@' :: scope ++ '/' :: bare) ||
      isFamilyName ('@' :: scope ++ '/' :: bare)) = true) : IsOrdinary (String.ofList bare) := by
  have hregular : isRegularName ('@' :: scope ++ '/' :: bare) = false := rfl
  rw [hregular, Bool.false_or, isScopedName_eq hscope, Bool.or_eq_true, Bool.and_eq_true] at h
  rcases h with ⟨-, hbareRegular⟩ | hfamily
  · exact isOrdinary_of_isRegularName hbare hbareRegular
  · obtain ⟨c, hc, hlower⟩ := getLast?_of_isFamilyName hfamily
    have hc : (('@' :: scope) ++ '/' :: bare).getLast? = some c := hc
    rw [List.getLast?_append] at hc
    refine isOrdinary_ofList ?_ ?_ ?_ hbare <;>
      (rintro rfl; cases hc; revert hlower; decide)

theorem flattened_of_not_mem {text : List Char} (h : '/' ∉ text) : flattened text = text := by
  induction text with
  | nil => rfl
  | cons c r ih =>
    rw [List.mem_cons, not_or] at h
    simp [flattened, Ne.symm h.1, ih h.2]

theorem flattened_append {scope : List Char} (h : '/' ∉ scope) (bare : List Char) :
    flattened (scope ++ '/' :: bare) = scope ++ '_' :: '_' :: bare := by
  induction scope with
  | nil => rfl
  | cons c r ih =>
    rw [List.mem_cons, not_or] at h
    simp [flattened, Ne.symm h.1, ih h.2]

/-! ## 3. Plausible names -/

/-- What is known of the package that a plausible name names. -/
theorem rootChars_of_plausible {name : String} (h : isPlausibleName name = true) :
    (rootChars name.toList).any isAsciiAlphanumeric = true ∧
      (isRegularName (rootChars name.toList) || isScopedName (rootChars name.toList) ||
        isFamilyName (rootChars name.toList)) = true := by
  simp only [isPlausibleName, Bool.and_eq_true] at h
  exact ⟨h.1.2, h.2⟩

/-- The name of the types of a package is one component. -/
theorem isOrdinary_typesName {package : List Char}
    (hshape : '/' ∉ package ∨ ∃ scope bare, '/' ∉ scope ∧ '/' ∉ bare ∧
      package = '@' :: scope ++ '/' :: bare)
    (h : package.any isAsciiAlphanumeric = true) :
    IsOrdinary (typesName (String.ofList package)) := by
  unfold typesName
  rw [String.toList_ofList]
  rcases hshape with hslash | ⟨scope, bare, hscope, hbare, rfl⟩
  · split
    · rename_i inner
      rw [List.mem_cons, not_or] at hslash
      rw [flattened_of_not_mem hslash.2]
      exact isOrdinary_of_alphanumeric hslash.2 h
    · exact isOrdinary_of_alphanumeric hslash h
  · simp only [List.cons_append, flattened_append hscope]
    refine isOrdinary_of_alphanumeric (by simp [hscope, hbare]) ?_
    -- neither of the two marks is the letter or the digit
    have hmarks : isAsciiAlphanumeric '@' = false ∧ isAsciiAlphanumeric '/' = false := by decide
    have hnames : (scope.any isAsciiAlphanumeric || bare.any isAsciiAlphanumeric) = true := by
      simpa [hmarks] using h
    rcases Bool.or_eq_true_iff.mp hnames with hany | hany <;> simp [hany]

/-- **The package of a plausible name** is one ordinary component, or two, and the name of its types is
one. -/
theorem components_of_plausible {name : String} (h : isPlausibleName name = true) :
    IsOrdinary (typesName (packageRoot name)) ∧
      ∃ components, (components.length = 1 ∨ components.length = 2) ∧
        (∀ c ∈ components, IsOrdinary c) ∧
        ∀ base, join base (packageRoot name) = joinAll base components := by
  obtain ⟨halphanumeric, haccepted⟩ := rootChars_of_plausible h
  have hshape := rootChars_cases name.toList
  refine ⟨isOrdinary_typesName hshape halphanumeric, ?_⟩
  unfold packageRoot
  rcases hshape with hslash | ⟨scope, bare, hscope, hbare, hpackage⟩
  · refine ⟨[String.ofList (rootChars name.toList)], .inl rfl, ?_, fun _ => rfl⟩
    simpa using isOrdinary_of_alphanumeric hslash halphanumeric
  · rw [hpackage] at haccepted ⊢
    have hfirst : IsOrdinary (String.ofList ('@' :: scope)) :=
      isOrdinary_ofList (by simp) (by simp) (by simp) (by simp [hscope])
    have hsecond := isOrdinary_bare hscope hbare haccepted
    refine ⟨[String.ofList ('@' :: scope), String.ofList bare], .inr rfl, ?_, fun base => ?_⟩
    · exact List.forall_mem_cons.mpr ⟨hfirst, List.forall_mem_singleton.mpr hsecond⟩
    · have htext : String.ofList ('@' :: scope ++ '/' :: bare) =
          String.ofList ('@' :: scope) ++ "/" ++ String.ofList bare := by
        simp [← String.toList_inj]
      rw [htext, join_slash hfirst hsecond]

/-! ## 4. Lookups -/

namespace Lookup

variable {lookup : Lookup} {name : String}

/-- The directories that hold packages: those of the project and of the published types, and the
further ones. -/
def moduleDirectories (lookup : Lookup) : List String :=
  join lookup.root "node_modules" :: join (join lookup.root "node_modules") "@types" ::
    lookup.directories

/-- A candidate is the manifest of one ordinary component, or two, below a directory of packages. -/
theorem candidates_of_plausible (h : isPlausibleName name = true) {path : String}
    (hpath : path ∈ lookup.candidates name) :
    ∃ directory ∈ lookup.moduleDirectories, ∃ components,
      (components.length = 1 ∨ components.length = 2) ∧ (∀ c ∈ components, IsOrdinary c) ∧
        path = joinAll directory (components ++ [manifestName]) := by
  obtain ⟨htypes, components, hlength, hordinary, hjoin⟩ := components_of_plausible h
  have hmanifest : ∀ directory, join (join directory (packageRoot name)) manifestName =
      joinAll directory (components ++ [manifestName]) := by
    intro directory
    rw [hjoin]
    simp [joinAll]
  have htypesManifest : join (join (join lookup.installed "@types") (typesName (packageRoot name)))
      manifestName =
        joinAll (join lookup.installed "@types") ([typesName (packageRoot name)] ++ [manifestName]) := by
    simp only [joinAll, List.foldl_append, List.foldl_cons, List.foldl_nil]
  unfold moduleDirectories
  simp only [candidates, hmanifest, htypesManifest, List.mem_cons, List.mem_map] at hpath ⊢
  rcases hpath with hpath | hpath | ⟨directory, hdirectory, hpath⟩
  · exact ⟨_, .inl rfl, components, hlength, hordinary, hpath⟩
  · exact ⟨_, .inr (.inl rfl), _, .inl rfl, List.forall_mem_singleton.mpr htypes, hpath⟩
  · exact ⟨directory, .inr (.inr hdirectory), components, hlength, hordinary, hpath.symm⟩

theorem forall_isOrdinary_append {components : List String} (h : ∀ c ∈ components, IsOrdinary c) :
    ∀ c ∈ components ++ [manifestName], IsOrdinary c :=
  List.forall_mem_append.mpr ⟨h, List.forall_mem_singleton.mpr (by decide)⟩

/-- **A version is looked up below the directories of packages.**  Between such a directory and the name
of the manifest stand one ordinary component or two, if the name is plausible; if it is not, nothing is
looked up, and the version is unknown on every disk. -/
theorem lookup_confined (lookup : Lookup) (name : String) :
    (isPlausibleName name = true → ∀ path ∈ lookup.candidates name,
      ∃ directory ∈ lookup.moduleDirectories, ∃ components,
        (components.length = 1 ∨ components.length = 2) ∧ (∀ c ∈ components, IsOrdinary c) ∧
          path = joinAll directory (components ++ [manifestName]) ∧
          isAbsolute path = isAbsolute directory ∧
          pathNames path = pathNames directory ++ components ++ [manifestName]) ∧
      (isPlausibleName name = false → ∀ disk, lookup.version disk name = unknownVersion) := by
  refine ⟨fun h path hpath => ?_, fun h disk => ?_⟩
  · obtain ⟨directory, hdirectory, components, hlength, hordinary, rfl⟩ :=
      candidates_of_plausible h hpath
    have hall := forall_isOrdinary_append hordinary
    refine ⟨directory, hdirectory, components, hlength, hordinary, rfl, ?_, ?_⟩
    · exact isAbsolute_joinAll hall directory
    · rw [pathNames_joinAll hall, List.append_assoc]
  · rw [version, h]
    rfl

namespace Example

/-- Where packages are looked for, in the examples. -/
def shared : Lookup := ⟨"/p", ["lib/"]⟩

/-- Parts of a name that look like steps out of a directory are ordinary; a step is no name. -/
theorem dotted_confined :
    (isPlausibleName "@../..js/../../etc" = true ∧
      ∃ directory ∈ shared.moduleDirectories, ∃ components,
        (components.length = 1 ∨ components.length = 2) ∧ (∀ c ∈ components, IsOrdinary c) ∧
          "lib/@../..js/package.json" = joinAll directory (components ++ [manifestName]) ∧
          isAbsolute "lib/@../..js/package.json" = isAbsolute directory ∧
          pathNames "lib/@../..js/package.json" =
            pathNames directory ++ components ++ [manifestName]) ∧
      isPlausibleName "../secret.js" = false ∧
      ∀ disk, shared.version disk "../secret.js" = unknownVersion := by
  have haccepted : isPlausibleName "@../..js/../../etc" = true := by decide
  have hcandidate : "lib/@../..js/package.json" ∈ shared.candidates "@../..js/../../etc" := by
    decide
  have hrejected : isPlausibleName "../secret.js" = false := by decide
  exact ⟨⟨haccepted, (lookup_confined shared _).1 haccepted _ hcandidate⟩,
    hrejected, (lookup_confined shared _).2 hrejected⟩

end Example

/-- **Only the candidates count.**  Disks on which they lead to the same give the same version. -/
theorem version_congr {disk disk' : Disk} (h : isPlausibleName name = true →
    ∀ path ∈ lookup.candidates name, disk.lookup path = disk'.lookup path) :
    lookup.version disk name = lookup.version disk' name := by
  unfold version
  split
  · rename_i hplausible
    have hsame := h hplausible
    have hfind : (lookup.candidates name).find? disk.isFile =
        (lookup.candidates name).find? disk'.isFile :=
      List.find?_congr fun path hpath => by simp only [Disk.isFile, hsame path hpath]
    rw [hfind]
    cases hfound : (lookup.candidates name).find? disk'.isFile with
    | none => rfl
    | some manifest =>
      simp only [Disk.readText, Disk.read, hsame manifest (List.mem_of_find?_eq_some hfound)]
  · rfl

/-- **A candidate leads below a directory of packages** on every disk on which it leads anywhere. -/
theorem place_of_candidate (h : isPlausibleName name = true) {path : String}
    (hpath : path ∈ lookup.candidates name) {disk : Disk} {place : Place}
    (hplace : disk.locate path = .ok place) :
    ∃ directory ∈ lookup.moduleDirectories, ∃ components above,
      (∀ c ∈ components, IsOrdinary c) ∧
        disk.walk (if isAbsolute directory then [] else disk.working) (splitPath directory.toList) =
          .ok above ∧
        place = above ++ components ++ [manifestName] := by
  obtain ⟨directory, hdirectory, components, -, hordinary, rfl⟩ := candidates_of_plausible h hpath
  have hall := forall_isOrdinary_append hordinary
  obtain ⟨-, hwalk⟩ := Disk.walk_of_locate hplace
  rw [isAbsolute_joinAll hall] at hwalk
  obtain ⟨above, habove, rfl⟩ := walk_joinAll hall hwalk
  exact ⟨directory, hdirectory, components, above, hordinary, habove, (List.append_assoc ..).symm⟩

end Lookup

end PackageRefs.Package
