/-
# The directories that a path passes through

What is looked for in the directories above a file is looked for along the file's path: each part that is
taken off the end leaves the path of another directory.  These are the directories that the path passes
through, and not all of them need to contain the file, since `..` leads out of a directory again.

* `follow`: where one name leads.  A path that leads somewhere leads there name by name
  (`eq_foldl_of_walk`), and through directories only (`walk_of_prefix`).
* `Contains.mem_passed`: every directory that contains the file is passed.
* `Contains.prefix_of_find?_passed`: if the last one that is passed of some kind contains the file, it is the
  innermost one of that kind.  Between a directory and a place below it, a path enters all that lies between
  them (`exists_prefix_of_foldl_follow`).
* `contains_of_mem_passed`: a path without `..` passes through no other directory.
-/
import Mathlib.Data.List.Induction
import PackageRefs.Proofs.Disk.Component
import PackageRefs.Proofs.Disk.Frame

namespace PackageRefs.Disk

/-! ## 1. The names in a path -/

/-- The text names an entry of a directory or stands for the directory above. -/
def IsComponent (name : String) : Prop := name = ".." ∨ IsOrdinary name

theorem IsComponent.slash_not_mem {name : String} (h : IsComponent name) : '/' ∉ name.toList := by
  rcases h with rfl | h
  · decide
  · exact h.slash_not_mem

theorem slash_not_mem_of_mem_splitPath {s part : List Char} (h : part ∈ splitPath s) : '/' ∉ part := by
  induction s generalizing part with
  | nil =>
    obtain rfl := List.mem_singleton.mp h
    exact List.not_mem_nil
  | cons c s ih =>
    unfold splitPath at h
    by_cases hc : c = '/'
    · rw [if_pos (beq_iff_eq.mpr hc)] at h
      rcases List.mem_cons.mp h with rfl | h
      · exact List.not_mem_nil
      · exact ih h
    · rw [if_neg (by simpa using hc)] at h
      cases hsplit : splitPath s with
      | nil =>
        rw [hsplit] at h
        obtain rfl := List.mem_singleton.mp h
        simpa using Ne.symm hc
      | cons first rest =>
        rw [hsplit] at h ih
        rcases List.mem_cons.mp h with rfl | h
        · rw [List.mem_cons, not_or]
          exact ⟨Ne.symm hc, ih List.mem_cons_self⟩
        · exact ih (List.mem_cons_of_mem first h)

theorem isComponent_of_mem_pathNames {path name : String} (h : name ∈ pathNames path) :
    IsComponent name := by
  obtain ⟨part, hpart, rfl⟩ := List.mem_map.mp h
  obtain ⟨hsplit, hkept⟩ := List.mem_filter.mp hpart
  simp only [Bool.and_eq_true, Bool.not_eq_true', List.isEmpty_eq_false_iff, bne_iff_ne] at hkept
  by_cases hdots : String.ofList part = ".."
  · exact .inl hdots
  · refine .inr ⟨fun heq => hkept.1 ?_, fun heq => hkept.2 ?_, hdots, ?_⟩
    · simpa using congrArg String.toList heq
    · simpa using congrArg String.toList heq
    · rw [String.toList_ofList]
      exact slash_not_mem_of_mem_splitPath hsplit

theorem splitPath_intercalate {first : String} {names : List String}
    (h : ∀ name ∈ first :: names, '/' ∉ name.toList) :
    splitPath (String.intercalate "/" (first :: names)).toList = (first :: names).map String.toList := by
  induction names generalizing first with
  | nil =>
    have hfirst := h first List.mem_cons_self
    simp [splitPath_of_not_mem hfirst]
  | cons second names ih =>
    obtain ⟨hfirst, hrest⟩ := List.forall_mem_cons.mp h
    have hsplit := ih hrest
    rw [String.toList_intercalate] at hsplit ⊢
    rw [List.map_cons, List.map_cons, List.intercalate_cons_cons, ← List.map_cons,
      show ("/" : String).toList = ['/'] from rfl, List.append_assoc, List.singleton_append, splitPath_slash,
      splitPath_of_not_mem hfirst]
    exact congrArg ([first.toList] ++ ·) hsplit

section

variable {d : Disk} {p q t place directory : Place} {names pre : List String} {path : String}

/-! ## 2. Walking along names -/

/-- Where a name leads from a directory. -/
def follow (place : Place) (name : String) : Place :=
  if name = ".." then place.dropLast else place ++ [name]

theorem follow_of_ordinary {name : String} (h : IsOrdinary name) (place : Place) :
    follow place name = place ++ [name] := if_neg h.ne_dots

theorem foldl_follow_of_ordinary (h : ∀ name ∈ names, IsOrdinary name) (p : Place) :
    names.foldl follow p = p ++ names := by
  induction names generalizing p with
  | nil => exact (List.append_nil p).symm
  | cons name names ih =>
    obtain ⟨hname, hnames⟩ := List.forall_mem_cons.mp h
    rw [List.foldl_cons, follow_of_ordinary hname, ih hnames, List.append_assoc, List.singleton_append]

theorem step?_of_component {name : String} (h : IsComponent name) (hstep : step? p name.toList = some q) :
    q = follow p name := by
  rcases h with rfl | h
  · exact (Option.some.inj hstep).symm
  · rw [follow_of_ordinary h]
    exact step?_of_ordinary h hstep

/-- A walk ends where its names lead. -/
theorem eq_foldl_of_walk (hnames : ∀ name ∈ names, IsComponent name)
    (h : d.walk p (names.map String.toList) = .ok q) : q = names.foldl follow p := by
  induction names generalizing p with
  | nil => exact (Except.ok.inj h).symm
  | cons name names ih =>
    obtain ⟨hname, hnames⟩ := List.forall_mem_cons.mp hnames
    obtain ⟨-, r, hr, hrest⟩ := walk_cons_eq_ok_iff.mp h
    rw [List.foldl_cons, ← step?_of_component hname hr]
    exact ih hnames hrest

/-- All that is left on a walk is a directory. -/
theorem walk_of_prefix (hnames : ∀ name ∈ names, IsComponent name)
    (h : d.walk p (names.map String.toList) = .ok q) (hpre : pre <+: names) :
    d.walk p (pre.map String.toList) = .ok (pre.foldl follow p) ∧
      (pre ≠ names → d.entry? (pre.foldl follow p) = some .directory) := by
  obtain ⟨rest, rfl⟩ := hpre
  rw [List.map_append] at h
  obtain ⟨r, hr, hrest⟩ := walk_append h
  obtain rfl := eq_foldl_of_walk (fun name hname => hnames name (List.mem_append_left rest hname)) hr
  refine ⟨hr, fun hne => ?_⟩
  cases rest with
  | nil => exact absurd (List.append_nil pre).symm hne
  | cons name rest => exact (walk_cons_eq_ok_iff.mp hrest).1

/-- Empty parts and single dots can be left out. -/
theorem walk_pathNames (h : d.walk p (splitPath path.toList) = .ok q) :
    d.walk p ((pathNames path).map String.toList) = .ok q := by
  have hparts : (pathNames path).map String.toList =
      (splitPath path.toList).filter fun part => !part.isEmpty && part != ['.'] := by
    simp [pathNames, Function.comp_def]
  rw [hparts]
  generalize splitPath path.toList = parts at h
  induction parts generalizing p with
  | nil => exact h
  | cons part parts ih =>
    obtain ⟨hp, r, hr, hrest⟩ := walk_cons_eq_ok_iff.mp h
    rw [List.filter_cons]
    split
    · exact walk_cons_eq_ok_iff.mpr ⟨hp, r, hr, ih hrest⟩
    · rename_i hleft
      have hstay : (part.isEmpty || part == ['.']) = true := by
        by_cases hempty : part = []
        · simp [hempty]
        · simpa [hempty] using hleft
      rw [step?, if_pos hstay] at hr
      obtain rfl := Option.some.inj hr
      exact ih hrest

/-! ## 3. From the top -/

/-- The working directory is there, under names that directories can have. -/
structure Settled (d : Disk) : Prop where
  rooted : d.Rooted
  ordinary : ∀ name ∈ d.working, IsOrdinary name
  short : ∀ name ∈ d.working, name.utf8ByteSize ≤ longestName

theorem Settled.walk_working (h : d.Settled) : d.walk [] (d.working.map String.toList) = .ok d.working := by
  suffices hrest : ∀ rest p, p ++ rest = d.working → d.walk p (rest.map String.toList) = .ok d.working from
    hrest d.working [] rfl
  intro rest
  induction rest with
  | nil =>
    intro p hp
    rw [← hp, List.append_nil]
    rfl
  | cons name rest ih =>
    intro p hp
    have hname : name ∈ d.working := hp ▸ by simp
    refine walk_cons_eq_ok_iff.mpr ⟨h.rooted p (List.isPrefixOf_iff_prefix.mpr ⟨_, hp⟩), p ++ [name],
      (step?_eq_some_iff (h.ordinary name hname)).mpr ⟨h.short name hname, rfl⟩, ih _ ?_⟩
    rw [List.append_assoc, List.singleton_append, hp]

theorem Settled.isComponent (h : d.Settled) {name : String} (hname : name ∈ absoluteNames d.working path) :
    IsComponent name := by
  unfold absoluteNames at hname
  split at hname
  · exact isComponent_of_mem_pathNames hname
  · rcases List.mem_append.mp hname with hname | hname
    · exact .inr (h.ordinary name hname)
    · exact isComponent_of_mem_pathNames hname

/-- A path leads from the top where it leads from the working directory. -/
theorem Settled.walk_absoluteNames (h : d.Settled) (hpath : d.locate path = .ok place) :
    d.walk [] ((absoluteNames d.working path).map String.toList) = .ok place := by
  have hwalk := walk_pathNames (walk_of_locate hpath).2
  unfold absoluteNames
  split at hwalk
  · rename_i habsolute
    rwa [if_pos habsolute]
  · rename_i hrelative
    rw [if_neg hrelative, List.map_append]
    exact walk_append_of h.walk_working hwalk

/-- A path that leads to a directory leads on to what is in it. -/
theorem locate_join {base name : String} (h : IsOrdinary name) (hshort : name.utf8ByteSize ≤ longestName)
    (hbase : d.locate base = .ok p) (hp : d.entry? p = some .directory) :
    d.locate (join base name) = .ok (p ++ [name]) := by
  obtain ⟨-, hwalk⟩ := walk_of_locate hbase
  have hnonempty : join base name ≠ "" := fun hempty => by
    have hnames := pathNames_join h base
    rw [hempty] at hnames
    simp [pathNames, splitPath] at hnames
  rw [locate, if_neg (by simpa using hnonempty), isAbsolute_join h]
  refine (walk_join_iff h).mpr ⟨p, hwalk, walk_cons_eq_ok_iff.mpr ⟨hp, _, ?_, rfl⟩⟩
  exact (step?_eq_some_iff h).mpr ⟨hshort, rfl⟩

/-! ## 4. Passing through directories -/

/-- The place is in the directory or in a subdirectory of it. -/
def Contains (directory place : Place) : Prop := directory <+: place ∧ directory ≠ place

instance (directory place : Place) : Decidable (Contains directory place) :=
  inferInstanceAs (Decidable (_ ∧ _))

/-- The directories that a path passes through on its way from the top, the last one first. -/
def passed (d : Disk) (path : String) : List Place :=
  (directoriesAbove (absoluteNames d.working path)).map fun names => names.foldl follow []

/-- A path that ends below a directory, but does not start there, enters it. -/
theorem exists_prefix_of_foldl_follow (ht : t <+: names.foldl follow p) (hp : ¬t <+: p) :
    ∃ pre, pre <+: names ∧ pre.foldl follow p = t := by
  induction names generalizing p with
  | nil => exact absurd ht hp
  | cons name names ih =>
    by_cases hnext : t <+: follow p name
    · refine ⟨[name], ⟨names, rfl⟩, ?_⟩
      unfold follow at hnext
      split at hnext
      · exact absurd (hnext.trans (List.dropLast_prefix p)) hp
      · rename_i hdown
        have hentered := (List.prefix_concat_iff.mp hnext).resolve_right hp
        rw [List.foldl_cons, List.foldl_nil, follow, if_neg hdown, hentered]
    · obtain ⟨pre, hpre, hfold⟩ := ih ht hnext
      exact ⟨name :: pre, (List.prefix_cons_inj name).mpr hpre, hfold⟩

end

theorem directoriesAbove_append_singleton (names : List String) (name : String) :
    directoriesAbove (names ++ [name]) = names :: directoriesAbove names := by
  have heq : ∀ ns : List String, directoriesAbove ns = (List.range ns.length).reverse.map ns.take :=
    fun ns => by cases ns <;> rfl
  rw [heq, heq, List.length_append, List.length_singleton, List.range_succ, List.reverse_append,
    List.reverse_singleton, List.singleton_append, List.map_cons, List.take_left]
  refine congrArg _ (List.map_congr_left fun n hn => ?_)
  rw [List.mem_reverse, List.mem_range] at hn
  exact List.take_append_of_le_length (Nat.le_of_lt hn)

theorem mem_directoriesAbove {names pre : List String} :
    pre ∈ directoriesAbove names ↔ pre <+: names ∧ pre ≠ names := by
  induction names using List.reverseRecOn with
  | nil =>
    refine iff_of_false List.not_mem_nil ?_
    rintro ⟨hpre, hne⟩
    exact hne (List.prefix_nil.mp hpre)
  | append_singleton names name ih =>
    rw [directoriesAbove_append_singleton, List.mem_cons, ih, List.prefix_concat_iff]
    constructor
    · rintro (rfl | ⟨hpre, -⟩)
      · exact ⟨.inr List.prefix_rfl, by simp⟩
      · refine ⟨.inr hpre, fun heq => ?_⟩
        have hlen := hpre.length_le
        rw [heq, List.length_append, List.length_singleton] at hlen
        omega
    · rintro ⟨hpre | hpre, hne⟩
      · exact absurd hpre hne
      · exact (em (pre = names)).imp_right fun h => ⟨hpre, h⟩

/-- The first directory of a kind is the longest one. -/
theorem prefix_of_find?_directoriesAbove {names pre longer : List String} {ofKind : List String → Bool}
    (h : (directoriesAbove names).find? ofKind = some pre) (hlonger : longer ∈ directoriesAbove names)
    (hkind : ofKind longer = true) : longer <+: pre := by
  induction names using List.reverseRecOn with
  | nil => cases hlonger
  | append_singleton names name ih =>
    rw [directoriesAbove_append_singleton] at h hlonger
    rw [List.find?_cons] at h
    split at h
    · obtain rfl := Option.some.inj h
      rcases List.mem_cons.mp hlonger with rfl | hmem
      · exact List.prefix_rfl
      · exact (mem_directoriesAbove.mp hmem).1
    · rename_i hfirst
      rcases List.mem_cons.mp hlonger with rfl | hmem
      · rw [hkind] at hfirst
        cases hfirst
      · exact ih h hmem

section

variable {d : Disk} {t place directory : Place} {path : String}

/-- **Every directory that contains the place of a path is passed.** -/
theorem Contains.mem_passed (h : Contains t place) (hsettled : d.Settled)
    (hpath : d.locate path = .ok place) : t ∈ d.passed path := by
  have hplace := eq_foldl_of_walk (fun _ => hsettled.isComponent) (hsettled.walk_absoluteNames hpath)
  obtain ⟨ht, hne⟩ := h
  rw [hplace] at ht hne
  obtain ⟨pre, hpre, rfl⟩ : ∃ pre, pre <+: absoluteNames d.working path ∧ pre.foldl follow [] = t := by
    by_cases htop : t <+: []
    · exact ⟨[], List.nil_prefix, (List.prefix_nil.mp htop).symm⟩
    · exact exists_prefix_of_foldl_follow ht htop
  exact List.mem_map_of_mem (mem_directoriesAbove.mpr ⟨hpre, fun heq => hne (heq ▸ rfl)⟩)

/-- **The last directory of a kind that is passed is the innermost one** of those that contain the place, if
it is one of them. -/
theorem Contains.prefix_of_find?_passed {ofKind : Place → Bool}
    (h : (d.passed path).find? ofKind = some directory) (hdirectory : Contains directory place)
    (ht : Contains t place) (hkind : ofKind t = true) (hsettled : d.Settled)
    (hpath : d.locate path = .ok place) : t <+: directory := by
  have hplace := eq_foldl_of_walk (fun _ => hsettled.isComponent) (hsettled.walk_absoluteNames hpath)
  unfold passed at h
  rw [List.find?_map] at h
  obtain ⟨pre, hfind, rfl⟩ := Option.map_eq_some_iff.mp h
  obtain ⟨⟨rest, hrest⟩, -⟩ := mem_directoriesAbove.mp (List.mem_of_find?_eq_some hfind)
  -- otherwise the rest of the path enters the directory, which makes it a later one of the kind
  refine Classical.byContradiction fun hnot => ?_
  obtain ⟨hbelow, hne⟩ := ht
  rw [hplace, ← hrest, List.foldl_append] at hbelow hne
  obtain ⟨more, hmore, hfold⟩ := exists_prefix_of_foldl_follow hbelow hnot
  have hmem : pre ++ more ∈ directoriesAbove (absoluteNames d.working path) := by
    rw [mem_directoriesAbove, ← hrest]
    refine ⟨(List.prefix_append_right_inj pre).mpr hmore, fun heq => hne ?_⟩
    rw [← hfold, List.append_cancel_left heq]
  have hlast := prefix_of_find?_directoriesAbove hfind hmem (by
    rw [Function.comp_apply, List.foldl_append, hfold, hkind])
  have hnil : more = [] := by
    have hlen := hlast.length_le
    rw [List.length_append] at hlen
    exact List.length_eq_zero_iff.mp (by omega)
  subst hnil hfold
  exact hnot List.prefix_rfl

/-- **A path without `..` only passes through directories that contain its place.** -/
theorem contains_of_mem_passed (hdots : ".." ∉ pathNames path) (hsettled : d.Settled)
    (hpath : d.locate path = .ok place) (h : directory ∈ d.passed path) : Contains directory place := by
  have hordinary : ∀ name ∈ absoluteNames d.working path, IsOrdinary name := by
    intro name hname
    rcases hsettled.isComponent hname with rfl | hname
    · unfold absoluteNames at hname
      split at hname
      · exact absurd hname hdots
      · exact hsettled.ordinary _ ((List.mem_append.mp hname).resolve_right hdots)
    · exact hname
  have hplace := eq_foldl_of_walk (fun _ => hsettled.isComponent) (hsettled.walk_absoluteNames hpath)
  rw [foldl_follow_of_ordinary hordinary, List.nil_append] at hplace
  obtain ⟨pre, hpre, rfl⟩ := List.mem_map.mp h
  obtain ⟨habove, hne⟩ := mem_directoriesAbove.mp hpre
  rw [foldl_follow_of_ordinary fun name hname => hordinary name (habove.subset hname), List.nil_append, hplace]
  exact ⟨habove, hne⟩

end

end PackageRefs.Disk
