/-
# Deleting what mentions a package

Four searches run one after the other, but only the first one can find anything: it deletes every line
that mentions the package, and what is left mentions it no more, so the strings, calls and properties that
the others look for are gone.  This needs that the package's name is not empty and has no line feed.

* `segmentsFrom_lineFinder`: the first search goes over a text line by line.
* `stripReferences_eq`: what is left are the other lines, with runs of blank lines shortened.
* `infix_collapsed`: shortening runs of blank lines brings no name into being.
-/
import PackageRefs.Proofs.Text.Line
import PackageRefs.Proofs.Text.Search
import PackageRefs.Removal.Strip

namespace PackageRefs

open PackageRefs.Text

variable {name : List Char}

/-! ## 1. A name in a line -/

theorem occursIn_iff {part text : List Char} : occursIn part text = true ↔ part <:+: text := by
  induction text with
  | nil => simp [occursIn]
  | cons c r ih => rw [occursIn, Bool.or_eq_true, List.isPrefixOf_iff_prefix, ih, List.infix_cons_iff]

theorem occursIn_eq_false_iff {part text : List Char} :
    occursIn part text = false ↔ ¬part <:+: text := by
  rw [← occursIn_iff, Bool.not_eq_true]

/-- A text in which the first line ends right here. -/
def EndsLine (tail : List Char) : Prop := tail = [] ∨ ∃ rest, tail = '\n' :: rest

theorem isInLine_of_not_mem {s : List Char} (h : '\n' ∉ s) : ∀ c ∈ s, isInLine c = true := by
  rintro c hc
  simp only [isInLine, bne_iff_ne, ne_eq]
  rintro rfl
  exact h hc

theorem takeWhile_append_of_endsLine {body tail : List Char} (hbody : '\n' ∉ body)
    (htail : EndsLine tail) : (body ++ tail).takeWhile isInLine = body := by
  rw [List.takeWhile_append_of_pos (isInLine_of_not_mem hbody)]
  rcases htail with rfl | ⟨rest, rfl⟩ <;> simp [isInLine]

theorem afterLine_append {s : List Char} (hs : '\n' ∉ s) (tail : List Char) :
    lineWith?.afterLine (s ++ tail) = lineWith?.afterLine tail := by
  unfold lineWith?.afterLine
  rw [List.dropWhile_append_of_pos (isInLine_of_not_mem hs)]

/-- A name without a line feed starts in a line only as far as the line goes. -/
theorem prefix_append_of_endsLine {body tail : List Char} (hname : '\n' ∉ name)
    (htail : EndsLine tail) : name <+: body ++ tail ↔ name <+: body := by
  rcases htail with rfl | ⟨rest, rfl⟩
  · rw [List.append_nil]
  · exact prefix_append_lineFeed_iff hname

theorem lineWith?_of_none {text : List Char} {n : Nat} (h : ∀ i ≤ n, ¬name <+: text.drop i) :
    lineWith? name text n = none := by
  induction n with
  | zero =>
    have hhere := h 0 (Nat.le_refl 0)
    rw [List.drop_zero, ← List.isPrefixOf_iff_prefix] at hhere
    rw [lineWith?, if_neg hhere]
  | succ n ih =>
    have hhere := h (n + 1) (Nat.le_refl _)
    rw [← List.isPrefixOf_iff_prefix] at hhere
    simp only [lineWith?, if_neg hhere]
    exact ih fun i hi => h i (Nat.le_succ_of_le hi)

/-- Wherever in the line the name is found, what follows the line is the same. -/
theorem lineWith?_of_some {text rest : List Char} {n i : Nat} (hi : i ≤ n)
    (hstarts : name <+: text.drop i)
    (hrest : ∀ j ≤ n, name <+: text.drop j →
      lineWith?.afterLine ((text.drop j).drop name.length) = rest) :
    lineWith? name text n = some rest := by
  induction n with
  | zero =>
    obtain rfl := Nat.le_zero.mp hi
    have hafter := hrest 0 (Nat.le_refl 0) hstarts
    rw [List.drop_zero] at hstarts hafter
    rw [lineWith?, if_pos (List.isPrefixOf_iff_prefix.mpr hstarts), hafter]
  | succ n ih =>
    by_cases hhere : name <+: text.drop (n + 1)
    · simp only [lineWith?, if_pos (List.isPrefixOf_iff_prefix.mpr hhere),
        hrest (n + 1) (Nat.le_refl _) hhere]
    · have hle : i ≤ n := by
        rcases Nat.lt_or_eq_of_le hi with hlt | rfl
        · exact Nat.le_of_lt_succ hlt
        · exact absurd hstarts hhere
      rw [← List.isPrefixOf_iff_prefix] at hhere
      simp only [lineWith?, if_neg hhere]
      exact ih hle fun j hj => hrest j (Nat.le_succ_of_le hj)

/-- **Looking for a line**: at the start of a line that holds the name, the line is found with its end. -/
theorem lineFinder_eq (hname : '\n' ∉ name) {before : Option Char}
    (hbefore : startsLine before = true) {body tail : List Char} (hbody : '\n' ∉ body)
    (htail : EndsLine tail) :
    lineFinder name before (body ++ tail) =
      if occursIn name body then some (upTo () (body ++ tail) (lineWith?.afterLine tail))
      else none := by
  have hstart : ∀ i ≤ body.length, name <+: (body ++ tail).drop i ↔ name <+: body.drop i := by
    intro i hi
    rw [List.drop_append_of_le_length hi]
    exact prefix_append_of_endsLine hname htail
  rw [lineFinder, if_pos hbefore, takeWhile_append_of_endsLine hbody htail]
  cases hoccurs : occursIn name body with
  | false =>
    rw [occursIn_eq_false_iff, infix_iff_exists_drop] at hoccurs
    rw [lineWith?_of_none fun i hi hstarts => hoccurs ⟨i, hi, (hstart i hi).mp hstarts⟩]
    rfl
  | true =>
    obtain ⟨i, hi, hstarts⟩ := infix_iff_exists_drop.mp (occursIn_iff.mp hoccurs)
    rw [lineWith?_of_some hi ((hstart i hi).mpr hstarts)]
    · rfl
    · intro j hj hstarts
      -- behind the name there is more of the line, and then its end
      obtain ⟨more, hmore⟩ := (hstart j hj).mp hstarts
      have hunbroken : '\n' ∉ more := fun hmem =>
        hbody (List.mem_of_mem_drop (hmore ▸ List.mem_append_right name hmem))
      rw [List.drop_append_of_le_length hj, ← hmore, List.append_assoc, List.drop_left,
        afterLine_append hunbroken]

/-! ## 2. The search for lines -/

/-- Inside a line nothing is found. -/
theorem segmentsFrom_inLine {c : Char} {s : List Char} (h : '\n' ∉ (c :: s).dropLast)
    (rest : List Char) :
    segmentsFrom (lineFinder name) (some c) 0 (s ++ rest) =
      s.map .kept ++ segmentsFrom (lineFinder name) (c :: s).getLast? 0 rest := by
  induction s generalizing c with
  | nil => rfl
  | cons d s ih =>
    rw [List.dropLast_cons_of_ne_nil (by simp), List.mem_cons, not_or] at h
    have hnothing : lineFinder name (some c) (d :: (s ++ rest)) = none := by
      rw [lineFinder, if_neg (by simp [startsLine, Ne.symm h.1])]
    rw [List.cons_append, segmentsFrom_kept hnothing, ih h.2, List.getLast?_cons_cons]
    rfl

/-- A line at whose start nothing is found is kept. -/
theorem segmentsFrom_keptLine {before : Option Char} {line rest : List Char} (hne : line ≠ [])
    (hline : '\n' ∉ line.dropLast) (hnothing : lineFinder name before (line ++ rest) = none) :
    segmentsFrom (lineFinder name) before 0 (line ++ rest) =
      line.map .kept ++ segmentsFrom (lineFinder name) line.getLast? 0 rest := by
  obtain ⟨c, s, rfl⟩ := List.exists_cons_of_ne_nil hne
  rw [List.cons_append] at hnothing ⊢
  rw [segmentsFrom_kept hnothing, segmentsFrom_inLine hline]
  rfl

/-- The pieces of a line: one if the line holds the name, and its characters otherwise. -/
def linePieces (name line : List Char) : List (Segment Unit) :=
  if occursIn name line then [.found () line] else line.map .kept

/-- At the start of a line the search finds the line or keeps it.  The line is the body with its end, or
the body alone if the text ends with it. -/
theorem segmentsFrom_line (hname : '\n' ∉ name) {before : Option Char} (hbefore : startsLine before = true)
    {body tail line rest : List Char} (hbody : '\n' ∉ body) (htail : EndsLine tail) (hne : line ≠ [])
    (hunbroken : '\n' ∉ line.dropLast) (htext : line ++ rest = body ++ tail)
    (hafter : lineWith?.afterLine tail = rest) (hoccurs : occursIn name line = occursIn name body) :
    segmentsFrom (lineFinder name) before 0 (line ++ rest) =
      linePieces name line ++ segmentsFrom (lineFinder name) line.getLast? 0 rest := by
  have hfind := lineFinder_eq hname hbefore hbody htail
  rw [← htext, hafter, ← hoccurs] at hfind
  unfold linePieces
  split
  · rename_i hfound
    rw [if_pos hfound, upTo, List.length_append, Nat.add_sub_cancel] at hfind
    rw [segmentsFrom_found hne hfind]
    rfl
  · rename_i hkept
    rw [if_neg hkept] at hfind
    exact segmentsFrom_keptLine hne hunbroken hfind

/-- **The search goes from line to line.** -/
theorem segmentsFrom_lineFinder (hname : '\n' ∉ name) (hne : name ≠ []) {lines : List (List Char)}
    (h : AreLines lines) {before : Option Char} (hbefore : startsLine before = true) :
    segmentsFrom (lineFinder name) before 0 lines.flatten = lines.flatMap (linePieces name) := by
  induction h generalizing before with
  | nil =>
    have hnothing := @lineFinder_eq name hname none rfl [] [] (by simp) (.inl rfl)
    rw [occursIn_eq_false_iff.mpr (by simpa using hne), if_neg Bool.false_ne_true] at hnothing
    exact segmentsFrom_nil_of_none hnothing before
  | @last line unended nonempty =>
    have hlast := @segmentsFrom_line name hname before hbefore line [] line [] unended (.inl rfl) nonempty
      (fun hmem => unended (List.mem_of_mem_dropLast hmem)) rfl rfl rfl
    rw [List.getLast?_eq_some_getLast nonempty, segmentsFrom_nil] at hlast
    simpa using hlast
  | @cons body lines unbroken rest ih =>
    have hoccurs : occursIn name (body ++ ['\n']) = occursIn name body := by
      rw [Bool.eq_iff_iff, occursIn_iff, occursIn_iff, infix_append_ended_iff hname hne]
    have htext : (body ++ ['\n']) ++ lines.flatten = body ++ '\n' :: lines.flatten := by simp
    have hcons := segmentsFrom_line hname hbefore unbroken (.inr ⟨_, rfl⟩) (by simp)
      (by simpa using unbroken) htext rfl hoccurs
    rw [List.getLast?_concat, ih rfl] at hcons
    rw [List.flatten_cons, hcons, List.flatMap_cons]

/-! ## 3. What is deleted -/

/-- The lines of a text that do not hold the name, put together. -/
def linesWithout (name text : List Char) : List Char :=
  ((linesOf text).filter fun line => !occursIn name line).flatten

/-- Kept characters stay. -/
theorem flatMap_kept (s : List Char) : (s.map Segment.kept).flatMap
    (fun p : Segment Unit => if p.isFound then [] else p.text) = s := by
  induction s with
  | nil => rfl
  | cons c s ih =>
    rw [List.map_cons, List.flatMap_cons, ih]
    rfl

theorem countFound_kept (s : List Char) :
    countFound (s.map Segment.kept : List (Segment Unit)) = 0 := by
  rw [countFound, List.countP_eq_zero]
  intro p hp
  obtain ⟨c, -, rfl⟩ := List.mem_map.mp hp
  simp [Segment.isFound, Segment.value?]

/-- **The first search** deletes the lines that hold the name, and counts them. -/
theorem deleteAll_lineFinder (hname : '\n' ∉ name) (hne : name ≠ []) (text : List Char) :
    deleteAll (lineFinder name) text =
      (linesWithout name text, (linesOf text).countP (occursIn name)) := by
  have hpieces : segments (lineFinder name) text = (linesOf text).flatMap (linePieces name) := by
    have hsearch : segmentsFrom (lineFinder name) none 0 _ = _ :=
      segmentsFrom_lineFinder hname hne (areLines_linesOf text) rfl
    rwa [flatten_linesOf] at hsearch
  unfold deleteAll linesWithout
  rw [hpieces]
  induction linesOf text with
  | nil => rfl
  | cons line lines ih =>
    obtain ⟨htext, hnumber⟩ := Prod.mk.inj ih
    unfold countFound at hnumber
    dsimp only
    rw [List.flatMap_cons, List.flatMap_append, htext, countFound, List.countP_append, hnumber,
      List.filter_cons, List.countP_cons]
    unfold linePieces
    cases occursIn name line with
    | true => simp [Segment.isFound, Segment.value?, Nat.add_comm]
    | false =>
      have hnone := countFound_kept line
      unfold countFound at hnone
      simp [flatMap_kept, hnone]

/-- Where nothing is found, nothing is deleted. -/
theorem deleteAll_of_nothing {find : Finder Unit} {text : List Char}
    (h : ∀ before t, t <:+ text → find before t = none) : deleteAll find text = (text, 0) := by
  unfold deleteAll segments
  rw [segmentsFrom_of_nothing h]
  dsimp only
  rw [flatMap_kept, countFound_kept]

theorem infix_of_stringFinder {before : Option Char} {text : List Char}
    (h : (stringFinder name before text).isSome) : name <:+: text := by
  unfold stringFinder at h
  split at h
  · split at h
    · obtain ⟨rest, hrest⟩ := Option.isSome_iff_exists.mp (Option.isSome_map .. ▸ h)
      exact (infix_of_around? hrest).trans (List.suffix_cons ..).isInfix
    · cases h
  · cases h

theorem infix_of_callFinder {before : Option Char} {text : List Char}
    (h : (callFinder name before text).isSome) : name <:+: text := by
  unfold callFinder at h
  dsimp only at h
  split at h
  · cases h
  · obtain ⟨found, hfound⟩ := Option.isSome_iff_exists.mp h
    obtain ⟨r, hafter, hfound⟩ := Option.bind_eq_some_iff.mp hfound
    obtain ⟨rest, haround, -⟩ := Option.bind_eq_some_iff.mp hfound
    have hsuffix : r <:+ text :=
      (suffix_of_after? hafter).trans ((afterBlanks_suffix _).trans (List.drop_suffix ..))
    exact (infix_of_around? haround).trans hsuffix.isInfix

theorem infix_of_propertyFinder {before : Option Char} {text : List Char}
    (h : (propertyFinder name before text).isSome) : name <:+: text := by
  unfold propertyFinder at h
  dsimp only at h
  split at h
  · cases h
  · obtain ⟨found, hfound⟩ := Option.isSome_iff_exists.mp h
    obtain ⟨r, hafter, hfound⟩ := Option.bind_eq_some_iff.mp hfound
    obtain ⟨rest, hquoted, -⟩ := Option.bind_eq_some_iff.mp hfound
    have hsuffix : afterBlanks r <:+ text := (afterBlanks_suffix r).trans
      ((suffix_of_after? hafter).trans ((afterBlanks_suffix _).trans (List.drop_suffix ..)))
    exact (infix_of_quoted? hquoted).trans hsuffix.isInfix

/-- The lines that are left do not hold the name, even together. -/
theorem not_infix_linesWithout (hname : '\n' ∉ name) (hne : name ≠ []) (text : List Char) :
    ¬name <:+: linesWithout name text := by
  rw [linesWithout, infix_flatten_iff hname hne ((areLines_linesOf text).filter _)]
  rintro ⟨line, hline, hinside⟩
  have hkept := (List.mem_filter.mp hline).2
  rw [Bool.not_eq_true', occursIn_eq_false_iff] at hkept
  exact hkept hinside

/-- The other three searches find nothing in a text that does not hold the name. -/
theorem deleteAll_of_not_infix {text : List Char} (h : ¬name <:+: text) {find : Finder Unit}
    (hfind : ∀ before t, (find before t).isSome → name <:+: t) :
    deleteAll find text = (text, 0) := by
  refine deleteAll_of_nothing fun before t ht => ?_
  refine Option.not_isSome_iff_eq_none.mp fun hfound => h ?_
  exact (hfind before t hfound).trans ht.isInfix

/-- **Deleting what mentions a package** is deleting the lines that do, and shortening runs of blank
lines if there was one. -/
theorem stripReferences_eq {source package : String} (hname : '\n' ∉ package.toList)
    (hne : package.toList ≠ []) :
    let left := linesWithout package.toList source.toList
    let count := (linesOf source.toList).countP (occursIn package.toList)
    stripReferences source package =
      ⟨String.ofList (if count == 0 then left else collapseBlankLines left), count⟩ := by
  have hgone := not_infix_linesWithout hname hne source.toList
  simp only [stripReferences, mentionFinders, List.foldl_cons, List.foldl_nil,
    deleteAll_lineFinder hname hne, deleteAll_of_not_infix hgone fun _ _ => infix_of_stringFinder,
    deleteAll_of_not_infix hgone fun _ _ => infix_of_callFinder,
    deleteAll_of_not_infix hgone fun _ _ => infix_of_propertyFinder, Nat.zero_add, Nat.add_zero]

/-- A line is deleted exactly if the text holds the name. -/
theorem countP_occursIn_pos_iff (hname : '\n' ∉ name) (hne : name ≠ []) {text : List Char} :
    0 < (linesOf text).countP (occursIn name) ↔ name <:+: text := by
  have htext := infix_flatten_iff hname hne (areLines_linesOf text)
  rw [flatten_linesOf] at htext
  simp only [htext, List.countP_pos_iff, occursIn_iff]

/-! ## 4. Runs of blank lines -/

theorem blankLines_suffix (fuel : Nat) (text : List Char) : (blankLines fuel text).2 <:+ text := by
  induction fuel generalizing text with
  | zero => exact List.suffix_refl _
  | succ fuel ih =>
    unfold blankLines
    split
    · rename_i r hspaces
      exact (ih r).trans ((List.suffix_cons ..).trans (hspaces ▸ afterSpaces_suffix text))
    · exact List.suffix_refl _

/-- A run of blank lines starts with a line feed. -/
theorem blankRunFinder_eq_some {before : Option Char} {text : List Char} {a : Unit} {n : Nat}
    (h : blankRunFinder before text = some (a, n)) :
    (∃ r, text = '\n' :: r) ∧ 0 < n ∧ n ≤ text.length := by
  unfold blankRunFinder at h
  split at h
  · rename_i r
    dsimp only at h
    split at h
    · obtain ⟨-, rfl⟩ := Prod.mk.inj (Option.some.inj h)
      have hle := (blankLines_suffix r.length r).length_le
      refine ⟨⟨r, rfl⟩, ?_, Nat.sub_le ..⟩
      rw [List.length_cons]
      omega
    · cases h
  · cases h

/-- What becomes of a piece when runs of blank lines are shortened. -/
def shortened (p : Segment Unit) : List Char := if p.isFound then ['\n', '\n'] else p.text

theorem head_of_blankRun {before : Option Char} {s rest : List Char} {a : Unit} {n : Nat}
    (hs : s ≠ []) (h : blankRunFinder before (s ++ rest) = some (a, n)) : ∃ r, s = '\n' :: r := by
  obtain ⟨⟨r, hr⟩, -⟩ := blankRunFinder_eq_some h
  obtain ⟨c, t, rfl⟩ := List.exists_cons_of_ne_nil hs
  rw [List.cons_append, List.cons.injEq] at hr
  exact ⟨t, by rw [hr.1]⟩

/-- The first line stays as it is. -/
theorem takeWhile_shortened {before : Option Char} {text : List Char} {pieces : List (Segment Unit)}
    (h : Searched blankRunFinder before text pieces) :
    (pieces.flatMap shortened).takeWhile isInLine = text.takeWhile isInLine := by
  induction h with
  | done => rfl
  | @kept before c r pieces nothing rest ih =>
    have hpiece : shortened (.kept c) = [c] := rfl
    rw [List.flatMap_cons, hpiece, List.singleton_append, List.takeWhile_cons, List.takeWhile_cons, ih]
  | @found before a s rest pieces nonempty find_eq behind ih =>
    obtain ⟨r, rfl⟩ := head_of_blankRun nonempty find_eq
    rfl

/-- A name that occurs when the pieces are put together occurred before. -/
theorem infix_of_shortened (hname : '\n' ∉ name) {before : Option Char} {text : List Char}
    {pieces : List (Segment Unit)} (h : Searched blankRunFinder before text pieces)
    (hinside : name <:+: pieces.flatMap shortened) : name <:+: text := by
  induction h with
  | done => exact hinside
  | @kept before c r pieces nothing rest ih =>
    have hfirst := takeWhile_shortened (.kept nothing rest)
    have hpiece : shortened (.kept c) = [c] := rfl
    rw [List.flatMap_cons, hpiece, List.singleton_append] at hinside hfirst
    rcases List.infix_cons_iff.mp hinside with ⟨more, hmore⟩ | hlater
    · -- the name is in the first line, which is the same
      rw [← hmore, List.takeWhile_append_of_pos (isInLine_of_not_mem hname)] at hfirst
      have hline : name <+: (c :: r).takeWhile isInLine := hfirst ▸ List.prefix_append ..
      exact (hline.trans (List.takeWhile_prefix _)).isInfix
    · exact (ih hlater).trans (List.suffix_cons ..).isInfix
  | @found before a s rest pieces nonempty find_eq behind ih =>
    have hpiece : shortened (.found a s) = [] ++ '\n' :: ([] ++ ['\n']) := rfl
    rw [List.flatMap_cons, hpiece, List.append_assoc, List.cons_append, List.append_assoc,
      infix_append_lineFeed_iff hname, List.singleton_append, infix_append_lineFeed_iff hname] at hinside
    rcases hinside with hnil | hnil | hlater
    · exact hnil.trans List.nil_infix
    · exact hnil.trans List.nil_infix
    · exact (ih hlater).trans (List.suffix_append ..).isInfix

/-- **Shortening runs of blank lines** brings no name into being. -/
theorem infix_collapsed (hname : '\n' ∉ name) {text : List Char}
    (h : name <:+: collapseBlankLines text) : name <:+: text :=
  infix_of_shortened hname
    (searched_segmentsFrom (fun _ _ _ _ hfind => (blankRunFinder_eq_some hfind).2) none text) h

/-- What is left after everything that mentions a package is deleted does not mention it. -/
theorem not_infix_stripReferences {source package : String} (hname : '\n' ∉ package.toList)
    (hne : package.toList ≠ []) :
    ¬package.toList <:+: (stripReferences source package).text.toList := by
  have hgone := not_infix_linesWithout hname hne source.toList
  rw [stripReferences_eq hname hne, String.toList_ofList]
  split
  · exact hgone
  · exact fun h => hgone (infix_collapsed hname h)

end PackageRefs
