/-
# Paths that lead on through ordinary components

A component of a path is ordinary if it names an entry of a directory: it is not empty, it is neither
`.` nor `..`, and it holds no slash.  A path that is led on through ordinary components cannot leave the
directory that it led to.

* `pathNames_joinAll`, `isAbsolute_joinAll`: the text of the path says so.
* `walk_joinAll`: so does every disk.  The place that the longer path leads to lies below the one that
  the base leads to, along the components.

An absolute component would replace the base, and `..` would lead out of it; that a component is ordinary
rules out both.
-/
import PackageRefs.Proofs.Disk.Place

namespace PackageRefs.Disk

/-! ## 1. Ordinary components -/

/-- The text names an entry of a directory: it is one part of a path, not empty, and neither `.` nor
`..`. -/
structure IsOrdinary (component : String) : Prop where
  ne_empty : component ≠ ""
  ne_dot : component ≠ "."
  ne_dots : component ≠ ".."
  slash_not_mem : '/' ∉ component.toList

instance (component : String) : Decidable (IsOrdinary component) :=
  decidable_of_iff (component ≠ "" ∧ component ≠ "." ∧ component ≠ ".." ∧ '/' ∉ component.toList)
    ⟨fun ⟨h1, h2, h3, h4⟩ => ⟨h1, h2, h3, h4⟩, fun ⟨h1, h2, h3, h4⟩ => ⟨h1, h2, h3, h4⟩⟩

theorem splitPath_slash (s t : List Char) : splitPath (s ++ '/' :: t) = splitPath s ++ splitPath t := by
  induction s with
  | nil => simp [splitPath]
  | cons c s ih =>
    by_cases hc : (c == '/') = true
    · simp [splitPath, hc, ih]
    · obtain ⟨init, last, hsplit, -⟩ := splitPath_append (s := []) (by simp) s
      cases init <;> simp [splitPath, hc, ih, hsplit]

theorem IsOrdinary.toList_ne_nil {component : String} (h : IsOrdinary component) :
    component.toList ≠ [] := fun heq => h.ne_empty (String.toList_inj.mp heq)

theorem IsOrdinary.toList_ne_dot {component : String} (h : IsOrdinary component) :
    component.toList ≠ ['.'] := fun heq => h.ne_dot (String.toList_inj.mp heq)

theorem IsOrdinary.toList_ne_dots {component : String} (h : IsOrdinary component) :
    component.toList ≠ ['.', '.'] := fun heq => h.ne_dots (String.toList_inj.mp heq)

theorem IsOrdinary.not_absolute {component : String} (h : IsOrdinary component) :
    isAbsolute component = false := by
  refine beq_eq_false_iff_ne.mpr fun hhead => h.slash_not_mem ?_
  exact List.mem_of_head? hhead

theorem IsOrdinary.splitPath_eq {component : String} (h : IsOrdinary component) :
    splitPath component.toList = [component.toList] := splitPath_of_not_mem h.slash_not_mem

/-! ## 2. One component -/

/-- A component that is joined to a path stands behind a slash, which may end the path already. -/
theorem join_cases {component : String} (h : IsOrdinary component) (base : String) :
    (base = "" ∧ join base component = component) ∨
      ∃ s, (base.toList = s ∧ s ≠ [] ∨ base.toList = s ++ ['/']) ∧
        (join base component).toList = s ++ '/' :: component.toList := by
  unfold join
  rw [h.not_absolute, Bool.false_or]
  by_cases hempty : base = ""
  · subst hempty
    exact .inl ⟨rfl, rfl⟩
  · rw [if_neg (by simpa using hempty)]
    refine .inr ?_
    split
    · rename_i hlast
      obtain ⟨s, hs⟩ := List.getLast?_eq_some_iff.mp (beq_iff_eq.mp hlast)
      exact ⟨s, .inr hs, by simp [hs]⟩
    · exact ⟨base.toList, .inl ⟨rfl, by simpa using hempty⟩, by simp⟩

theorem isAbsolute_join {component : String} (h : IsOrdinary component) (base : String) :
    isAbsolute (join base component) = isAbsolute base := by
  rcases join_cases h base with ⟨rfl, hjoin⟩ | ⟨s, hbase, hjoin⟩
  · rw [hjoin, h.not_absolute]
    rfl
  · unfold isAbsolute
    rw [hjoin]
    rcases hbase with ⟨hbase, hne⟩ | hbase
    · obtain ⟨c, r, rfl⟩ := List.exists_cons_of_ne_nil hne
      simp [hbase]
    · cases s <;> simp [hbase]

/-- Joining an ordinary component adds it to the names of a path. -/
theorem pathNames_join {component : String} (h : IsOrdinary component) (base : String) :
    pathNames (join base component) = pathNames base ++ [component] := by
  have hkept : [component.toList].filter (fun p => !p.isEmpty && p != ['.']) = [component.toList] := by
    simp [h.toList_ne_nil, h.toList_ne_dot]
  rcases join_cases h base with ⟨rfl, hjoin⟩ | ⟨s, hbase, hjoin⟩
  · rw [hjoin, pathNames, h.splitPath_eq, hkept]
    simp [pathNames, splitPath]
  · simp only [pathNames, hjoin, splitPath_slash, h.splitPath_eq, List.filter_append, hkept,
      List.map_append]
    rcases hbase with ⟨hbase, -⟩ | hbase
    · simp [hbase]
    · simp [hbase, splitPath_slash, splitPath]

section

variable {d : Disk}

/-- A step along an ordinary component goes down, if there can be such a name. -/
theorem step?_eq_some_iff {component : String} (h : IsOrdinary component) {p r : Place} :
    step? p component.toList = some r ↔
      component.utf8ByteSize ≤ longestName ∧ r = p ++ [component] := by
  unfold step?
  rw [if_neg (by simp [h.toList_ne_nil, h.toList_ne_dot]), if_neg (by simpa using h.toList_ne_dots),
    String.ofList_toList]
  split
  · rename_i hlong
    exact iff_of_false nofun fun hshort => Nat.not_le_of_lt hlong hshort.1
  · rename_i hshort
    rw [Option.some.injEq]
    exact ⟨fun heq => ⟨Nat.le_of_not_lt hshort, heq.symm⟩, fun hr => hr.2.symm⟩

theorem step?_of_ordinary {component : String} (h : IsOrdinary component) {p r : Place}
    (hstep : step? p component.toList = some r) : r = p ++ [component] :=
  ((step?_eq_some_iff h).mp hstep).2

theorem walk_append_of {p r q : Place} {init rest : List (List Char)} (hinit : d.walk p init = .ok r)
    (hrest : d.walk r rest = .ok q) : d.walk p (init ++ rest) = .ok q := by
  induction init generalizing p with
  | nil =>
    cases hinit
    exact hrest
  | cons part init ih =>
    obtain ⟨hp, t, ht, hinit⟩ := walk_cons_eq_ok_iff.mp hinit
    exact walk_cons_eq_ok_iff.mpr ⟨hp, t, ht, ih hinit⟩

/-- Along an empty part a walk stays where it is. -/
theorem walk_empty_iff {p q : Place} :
    d.walk p [[]] = .ok q ↔ d.entry? p = some .directory ∧ q = p := by
  rw [walk_cons_eq_ok_iff]
  refine and_congr_right fun _ => ⟨?_, fun hq => ⟨p, rfl, congrArg _ hq.symm⟩⟩
  rintro ⟨r, hr, hwalk⟩
  obtain rfl := Option.some.inj hr
  exact (Except.ok.inj hwalk).symm

/-- The walk along a path and a component is the walk along the path and then along the component. -/
theorem walk_join_iff {component : String} (h : IsOrdinary component) {base : String} {start q : Place} :
    d.walk start (splitPath (join base component).toList) = .ok q ↔
      ∃ r, d.walk start (splitPath base.toList) = .ok r ∧ d.walk r [component.toList] = .ok q := by
  have hleft : ∀ {r}, d.walk r [component.toList] = .ok q → d.entry? r = some .directory :=
    fun hr => (walk_cons_eq_ok_iff.mp hr).1
  rcases join_cases h base with ⟨rfl, hjoin⟩ | ⟨s, hbase, hjoin⟩
  · rw [hjoin, h.splitPath_eq]
    constructor
    · intro hwalk
      exact ⟨start, walk_empty_iff.mpr ⟨hleft hwalk, rfl⟩, hwalk⟩
    · rintro ⟨r, hr, hwalk⟩
      obtain ⟨-, rfl⟩ := walk_empty_iff.mp hr
      exact hwalk
  · rw [hjoin, splitPath_slash, h.splitPath_eq]
    constructor
    · intro hwalk
      obtain ⟨r, hr, hwalk⟩ := walk_append hwalk
      refine ⟨r, ?_, hwalk⟩
      rcases hbase with ⟨hbase, -⟩ | hbase
      · rw [hbase, hr]
      · -- the slash at the end of the base stands for one more part, which is empty
        rw [hbase, splitPath_slash]
        exact walk_append_of hr (walk_empty_iff.mpr ⟨hleft hwalk, rfl⟩)
    · rintro ⟨r, hr, hwalk⟩
      refine walk_append_of ?_ hwalk
      rcases hbase with ⟨hbase, -⟩ | hbase
      · rwa [hbase] at hr
      · rw [hbase, splitPath_slash] at hr
        obtain ⟨t, ht, hstay⟩ := walk_append hr
        obtain ⟨-, rfl⟩ := walk_empty_iff.mp hstay
        exact ht

/-- A path that is led on through an ordinary component leads one step below where it led. -/
theorem walk_join {component : String} (h : IsOrdinary component) {base : String} {start q : Place}
    (hwalk : d.walk start (splitPath (join base component).toList) = .ok q) :
    ∃ r, d.walk start (splitPath base.toList) = .ok r ∧ q = r ++ [component] := by
  obtain ⟨r, hr, hwalk⟩ := (walk_join_iff h).mp hwalk
  obtain ⟨-, t, ht, hend⟩ := walk_cons_eq_ok_iff.mp hwalk
  obtain rfl := Except.ok.inj hend
  exact ⟨r, hr, step?_of_ordinary h ht⟩

end

/-! ## 3. Several components -/

/-- The path that leads on from a base through components. -/
def joinAll (base : String) (components : List String) : String := components.foldl join base

/-- Two components with a slash between them are joined like one after the other. -/
theorem join_slash {first second : String} (hfirst : IsOrdinary first) (hsecond : IsOrdinary second)
    (base : String) : join base (first ++ "/" ++ second) = joinAll base [first, second] := by
  have hhead : isAbsolute (first ++ "/" ++ second) = false := by
    obtain ⟨c, r, hcr⟩ := List.exists_cons_of_ne_nil hfirst.toList_ne_nil
    have habsolute := hfirst.not_absolute
    unfold isAbsolute at habsolute ⊢
    simpa [hcr] using habsolute
  -- what is joined to the first component needs a slash of its own
  have hend : (join base first).toList.getLast? ≠ some '/' ∧ join base first ≠ "" := by
    obtain ⟨s, hs⟩ : ∃ s, (join base first).toList = s ++ first.toList := by
      rcases join_cases hfirst base with ⟨-, hjoin⟩ | ⟨s, -, hjoin⟩
      · exact ⟨[], by rw [hjoin]; rfl⟩
      · exact ⟨s ++ ['/'], by simp [hjoin]⟩
    obtain ⟨r, c, hrc⟩ := List.eq_nil_or_concat first.toList |>.resolve_left hfirst.toList_ne_nil
    have hc : c ≠ '/' := fun hc => hfirst.slash_not_mem (by simp [hrc, hc])
    refine ⟨by simp [hs, hrc, hc], fun hempty => ?_⟩
    rw [hempty, hrc] at hs
    simp at hs
  calc join base (first ++ "/" ++ second)
    _ = join base first ++ "/" ++ second := by
      unfold join
      rw [hhead, hfirst.not_absolute]
      split
      · rfl
      · split <;> simp [String.append_assoc]
    _ = join (join base first) second := by
      rw [join.eq_def (join base first) second, hsecond.not_absolute]
      simp [hend.1, hend.2]

variable {components : List String}

theorem isAbsolute_joinAll (h : ∀ c ∈ components, IsOrdinary c) (base : String) :
    isAbsolute (joinAll base components) = isAbsolute base := by
  induction components generalizing base with
  | nil => rfl
  | cons c cs ih =>
    obtain ⟨hc, hcs⟩ := List.forall_mem_cons.mp h
    exact (ih hcs (join base c)).trans (isAbsolute_join hc base)

theorem pathNames_joinAll (h : ∀ c ∈ components, IsOrdinary c) (base : String) :
    pathNames (joinAll base components) = pathNames base ++ components := by
  induction components generalizing base with
  | nil => exact (List.append_nil _).symm
  | cons c cs ih =>
    obtain ⟨hc, hcs⟩ := List.forall_mem_cons.mp h
    calc pathNames (joinAll (join base c) cs)
      _ = pathNames (join base c) ++ cs := ih hcs (join base c)
      _ = pathNames base ++ c :: cs := by rw [pathNames_join hc, List.append_assoc]; rfl

/-- **A path through ordinary components leads below its base**, whatever the disk looks like. -/
theorem walk_joinAll (h : ∀ c ∈ components, IsOrdinary c) {d : Disk} {base : String}
    {start q : Place} (hwalk : d.walk start (splitPath (joinAll base components).toList) = .ok q) :
    ∃ r, d.walk start (splitPath base.toList) = .ok r ∧ q = r ++ components := by
  induction components generalizing base with
  | nil => exact ⟨q, hwalk, (List.append_nil q).symm⟩
  | cons c cs ih =>
    obtain ⟨hc, hcs⟩ := List.forall_mem_cons.mp h
    obtain ⟨below, hbelow, rfl⟩ := ih hcs hwalk
    obtain ⟨r, hr, rfl⟩ := Disk.walk_join hc hbelow
    exact ⟨r, hr, by simp⟩

end PackageRefs.Disk
