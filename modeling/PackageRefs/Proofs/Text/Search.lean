/-
# The steps of a search

`segments` walks over a text with a count of the characters to be passed over.  Its steps say the same
without the count: a character at which nothing is found is kept (`segmentsFrom_kept`), and behind a find
the search goes on with the character before it (`segmentsFrom_found`).

`Searched` is the relation that has these steps as its constructors.  An induction about a search is an
induction on it, and `searched_segmentsFrom` says that every search is one, if the finder advances.

Two sections are about phrases: what `around?` and `quoted?` find holds the phrase.  The last one is about
places: every find was found at some place, and where something could be found something is
(`countFound_pos_of_find`), so a search comes back empty-handed only if there is nothing anywhere.
-/
import PackageRefs.Text.Search

namespace PackageRefs.Text

variable {α : Type} {find : Finder α}

/-! ## 1. Single steps -/

theorem segmentsFrom_nil (find : Finder α) (c : Char) (skip : Nat) :
    segmentsFrom find (some c) skip [] = [] := by
  cases skip <;> rfl

theorem segmentsFrom_nil_of_none (h : find none [] = none) (before : Option Char) :
    segmentsFrom find before 0 [] = [] := by
  cases before with
  | none => simp [segmentsFrom, h]
  | some c => rfl

/-- Where nothing is found, the character is kept. -/
theorem segmentsFrom_kept {before : Option Char} {c : Char} {r : List Char}
    (h : find before (c :: r) = none) :
    segmentsFrom find before 0 (c :: r) = .kept c :: segmentsFrom find (some c) 0 r := by
  rw [segmentsFrom, h]

/-- Characters to be passed over are passed over. -/
theorem segmentsFrom_skip (find : Finder α) (c : Char) (s rest : List Char) :
    segmentsFrom find (some c) s.length (s ++ rest) =
      segmentsFrom find (c :: s).getLast? 0 rest := by
  induction s generalizing c with
  | nil => rfl
  | cons d s ih =>
    rw [List.length_cons, List.cons_append, segmentsFrom, ih, List.getLast?_cons_cons]

/-- Behind a find the search goes on, with the last character of the find before it. -/
theorem segmentsFrom_found {before : Option Char} {a : α} {s rest : List Char} (hs : s ≠ [])
    (h : find before (s ++ rest) = some (a, s.length)) :
    segmentsFrom find before 0 (s ++ rest) = .found a s :: segmentsFrom find s.getLast? 0 rest := by
  obtain ⟨c, r, rfl⟩ := List.exists_cons_of_ne_nil hs
  rw [List.cons_append] at h ⊢
  rw [segmentsFrom, h]
  simp only [List.length_cons, List.take_succ_cons, Nat.add_sub_cancel, List.take_left',
    segmentsFrom_skip]

/-! ## 2. Whole searches -/

/-- A search of a text with the character before it, and the pieces that come of it. -/
inductive Searched (find : Finder α) : Option Char → List Char → List (Segment α) → Prop
  | done (before : Option Char) : Searched find before [] []
  | kept {before : Option Char} {c : Char} {r : List Char} {pieces : List (Segment α)}
      (nothing : find before (c :: r) = none) (rest : Searched find (some c) r pieces) :
      Searched find before (c :: r) (.kept c :: pieces)
  | found {before : Option Char} {a : α} {s rest : List Char} {pieces : List (Segment α)}
      (nonempty : s ≠ []) (find_eq : find before (s ++ rest) = some (a, s.length))
      (behind : Searched find s.getLast? rest pieces) :
      Searched find before (s ++ rest) (.found a s :: pieces)

/-- What the finder finds is never empty and never longer than the text. -/
def Finder.Advances (find : Finder α) : Prop :=
  ∀ before text a n, find before text = some (a, n) → 0 < n ∧ n ≤ text.length

/-- **Every search consists of these steps**, if the finder advances. -/
theorem searched_segmentsFrom (h : find.Advances) (before : Option Char) (text : List Char) :
    Searched find before text (segmentsFrom find before 0 text) := by
  induction hlength : text.length using Nat.strongRecOn generalizing before text with
  | ind length ih =>
    subst hlength
    cases text with
    | nil =>
      have hnone : find none [] = none := by
        cases hfind : find none [] with
        | none => rfl
        | some found =>
          obtain ⟨hpos, hle⟩ := h none [] found.1 found.2 hfind
          exact absurd (Nat.lt_of_lt_of_le hpos hle) (Nat.lt_irrefl 0)
      rw [segmentsFrom_nil_of_none hnone]
      exact .done before
    | cons c r =>
      cases hfind : find before (c :: r) with
      | none =>
        rw [segmentsFrom_kept hfind]
        exact .kept hfind (ih r.length (Nat.lt_succ_self _) _ r rfl)
      | some found =>
        obtain ⟨a, n⟩ := found
        obtain ⟨hpos, hle⟩ := h before (c :: r) a n hfind
        -- the find is the first `n` characters
        have hsplit : (c :: r).take n ++ (c :: r).drop n = c :: r := List.take_append_drop n _
        have hlen : ((c :: r).take n).length = n := List.length_take_of_le hle
        have hne : (c :: r).take n ≠ [] := by
          intro hnil
          rw [hnil, List.length_nil] at hlen
          omega
        generalize (c :: r).take n = s at *
        generalize hrest : (c :: r).drop n = rest at *
        have hshorter : rest.length < (c :: r).length := by
          rw [← hrest, List.length_drop]
          exact Nat.sub_lt (Nat.lt_of_lt_of_le hpos hle) hpos
        rw [← hsplit, ← hlen] at hfind
        rw [← hsplit, segmentsFrom_found hne hfind]
        exact .found hne hfind (ih rest.length hshorter _ rest rfl)

/-- The pieces of a search put together are the text. -/
theorem Searched.flatMap_text {before : Option Char} {text : List Char} {pieces : List (Segment α)}
    (h : Searched find before text pieces) : pieces.flatMap Segment.text = text := by
  induction h with
  | done => rfl
  | kept nothing rest ih => rw [List.flatMap_cons, ih]; rfl
  | found nonempty find_eq behind ih => rw [List.flatMap_cons, ih]; rfl

theorem flatMap_text_segments (h : find.Advances) (text : List Char) :
    (segments find text).flatMap Segment.text = text :=
  (searched_segmentsFrom h none text).flatMap_text

/-- Where nothing is found anywhere, every character is kept. -/
theorem segmentsFrom_of_nothing {text : List Char}
    (h : ∀ before t, t <:+ text → find before t = none) (before : Option Char) :
    segmentsFrom find before 0 text = text.map .kept := by
  induction text generalizing before with
  | nil => exact segmentsFrom_nil_of_none (h none [] (List.suffix_refl _)) before
  | cons c r ih =>
    rw [segmentsFrom_kept (h before _ (List.suffix_refl _)),
      ih fun before t ht => h before t (ht.trans (List.suffix_cons c r)), List.map_cons]

/-- Where nothing is found at any of the first characters, they are kept, and the search goes on behind
them. -/
theorem segmentsFrom_append_of_none {before : Option Char} {s rest : List Char}
    (h : ∀ pre t, s = pre ++ t → t ≠ [] → find (pre.getLast?.or before) (t ++ rest) = none) :
    segmentsFrom find before 0 (s ++ rest) =
      s.map .kept ++ segmentsFrom find (s.getLast?.or before) 0 rest := by
  induction s generalizing before with
  | nil => rfl
  | cons c s ih =>
    have hfirst : find before (c :: (s ++ rest)) = none := h [] _ rfl (by simp)
    have hlater : ∀ pre t, s = pre ++ t → t ≠ [] → find (pre.getLast?.or (some c)) (t ++ rest) = none := by
      rintro pre t rfl hne
      have hbehind := h (c :: pre) t rfl hne
      rwa [List.getLast?_cons, Option.some_or, ← Option.or_some] at hbehind
    rw [List.cons_append, segmentsFrom_kept hfirst, ih hlater, List.getLast?_cons, Option.some_or, ← Option.or_some]
    rfl

theorem segmentsFrom_append_of_nothing {before : Option Char} {s rest : List Char}
    (h : ∀ before t, t <:+ s → t ≠ [] → find before (t ++ rest) = none) :
    segmentsFrom find before 0 (s ++ rest) =
      s.map .kept ++ segmentsFrom find (s.getLast?.or before) 0 rest :=
  segmentsFrom_append_of_none fun pre t hs hne => h _ t (hs ▸ List.suffix_append pre t) hne

/-- Where the finder sees no further than the first part, the two parts can be searched one after the other. -/
theorem segmentsFrom_append_of_local (hfind : find.Advances) {s rest : List Char}
    (h : ∀ before t, t <:+ s → t ≠ [] → find before (t ++ rest) = find before t) (before : Option Char) :
    segmentsFrom find before 0 (s ++ rest) =
      segmentsFrom find before 0 s ++ segmentsFrom find (s.getLast?.or before) 0 rest := by
  have hsearched := searched_segmentsFrom hfind before s
  generalize segmentsFrom find before 0 s = pieces at hsearched ⊢
  induction hsearched with
  | done => rfl
  | @kept before c r pieces nothing behind ih =>
    have hfirst : find before (c :: (r ++ rest)) = none := (h before _ (List.suffix_refl _) (by simp)).trans nothing
    rw [List.cons_append, segmentsFrom_kept hfirst,
      ih fun before t ht hne => h before t (ht.trans (List.suffix_cons c r)) hne, List.getLast?_cons,
      Option.some_or, ← Option.or_some]
    rfl
  | @found before a s behind pieces nonempty find_eq _ ih =>
    have hfirst : find before (s ++ (behind ++ rest)) = some (a, s.length) := by
      rw [← List.append_assoc]
      exact (h before _ (List.suffix_refl _) (by simp [nonempty])).trans find_eq
    have hlast : s.getLast? = some (s.getLast nonempty) := List.getLast?_eq_some_getLast nonempty
    rw [List.append_assoc, segmentsFrom_found nonempty hfirst,
      ih fun before t ht hne => h before t (ht.trans (List.suffix_append s behind)) hne, List.getLast?_append, hlast]
    cases behind.getLast? <;> rfl

/-! ## 3. Phrases -/

theorem suffix_of_after? {phrase : String} {text rest : List Char}
    (h : after? phrase text = some rest) : rest <:+ text := by
  unfold after? at h
  split at h
  · rw [← Option.some.inj h]
    exact List.drop_suffix ..
  · cases h

theorem after?_eq_some_iff {phrase : String} {text rest : List Char} :
    after? phrase text = some rest ↔ text = phrase.toList ++ rest := by
  unfold after?
  constructor
  · intro h
    split at h
    · rename_i hprefix
      obtain ⟨more, rfl⟩ := List.isPrefixOf_iff_prefix.mp hprefix
      rw [List.drop_left, Option.some.injEq] at h
      rw [h]
    · cases h
  · rintro rfl
    rw [if_pos (List.isPrefixOf_iff_prefix.mpr (List.prefix_append ..)), List.drop_left]

theorem afterBlanks_suffix (text : List Char) : afterBlanks text <:+ text :=
  List.dropWhile_suffix _

/-- White space is passed over up to the first character that is none. -/
theorem afterBlanks_eq_cons_iff {text r : List Char} {c : Char} :
    afterBlanks text = c :: r ↔
      ∃ w, text = w ++ c :: r ∧ (∀ b ∈ w, isBlank b = true) ∧ isBlank c = false := by
  unfold afterBlanks
  constructor
  · intro h
    refine ⟨text.takeWhile isBlank, ?_, List.all_eq_true.mp List.all_takeWhile, ?_⟩
    · rw [← h]
      exact List.takeWhile_append_dropWhile.symm
    · have hne : text.dropWhile isBlank ≠ [] := by simp [h]
      have hhead := List.head_dropWhile_not isBlank hne
      simpa only [h, List.head_cons] using hhead
  · rintro ⟨w, rfl, hw, hc⟩
    rw [List.dropWhile_append_of_pos hw, List.dropWhile_cons_of_neg (by simp [hc])]

theorem afterSpaces_suffix (text : List Char) : afterSpaces text <:+ text :=
  List.dropWhile_suffix _

theorem prefix_of_closing? {inside close : Char → Bool} {phrase here rest : List Char}
    (h : enclosing?.closing? inside close phrase here = some rest) : phrase <+: here := by
  unfold enclosing?.closing? at h
  split at h
  · exact List.isPrefixOf_iff_prefix.mp ‹_›
  · cases h

/-- What is found around a phrase holds the phrase. -/
theorem infix_of_enclosing? {inside close : Char → Bool} {phrase text rest : List Char} {n : Nat}
    (h : enclosing? inside close phrase text n = some rest) : phrase <:+: text := by
  induction n with
  | zero => exact (prefix_of_closing? h).isInfix
  | succ n ih =>
    rw [enclosing?] at h
    split at h
    · rename_i hclosing
      exact (prefix_of_closing? hclosing).isInfix.trans (List.drop_suffix ..).isInfix
    · exact ih h

/-- A phrase that stands at the start and is closed behind it is found, however far the search begins. -/
theorem isSome_enclosing? {inside close : Char → Bool} {phrase text rest : List Char}
    (h : enclosing?.closing? inside close phrase text = some rest) (n : Nat) :
    (enclosing? inside close phrase text n).isSome := by
  induction n with
  | zero => simp [enclosing?, h]
  | succ n ih =>
    rw [enclosing?]
    split
    · rfl
    · exact ih

theorem infix_of_around? {inside close : Char → Bool} {phrase text rest : List Char}
    (h : around? inside close phrase text = some rest) : phrase <:+: text :=
  infix_of_enclosing? h

theorem infix_of_quoted? {phrase text rest : List Char} (h : quoted? phrase text = some rest) :
    phrase <:+: text := by
  unfold quoted? at h
  split at h
  · split at h
    · exact (infix_of_around? h).trans (List.suffix_cons ..).isInfix
    · cases h
  · cases h

theorem suffix_of_closing? {inside close : Char → Bool} {phrase here rest : List Char}
    (h : enclosing?.closing? inside close phrase here = some rest) : rest <:+ here := by
  unfold enclosing?.closing? at h
  split at h
  · split at h
    · rename_i c more hbehind
      have hsuffix : c :: more <:+ here := by
        rw [← hbehind]
        exact (List.dropWhile_suffix _).trans (List.drop_suffix ..)
      split at h
      · cases h
        exact (List.suffix_cons ..).trans hsuffix
      · cases h
    · cases h
  · cases h

theorem suffix_of_enclosing? {inside close : Char → Bool} {phrase text rest : List Char} {n : Nat}
    (h : enclosing? inside close phrase text n = some rest) : rest <:+ text := by
  induction n with
  | zero => exact suffix_of_closing? h
  | succ n ih =>
    rw [enclosing?] at h
    split at h
    · rename_i found hclosing
      cases h
      exact (suffix_of_closing? hclosing).trans (List.drop_suffix ..)
    · exact ih h

theorem suffix_of_quoted? {phrase text rest : List Char} (h : quoted? phrase text = some rest) :
    rest <:+ text := by
  unfold quoted? at h
  split at h
  · split at h
    · exact (suffix_of_enclosing? h).trans (List.suffix_cons ..)
    · cases h
  · cases h

/-! ## 4. Places of finds -/

/-- A find in a search was found at some place of the text. -/
theorem exists_find_of_mem {a : α} {s text : List Char} {before : Option Char} {skip : Nat}
    (h : .found a s ∈ segmentsFrom find before skip text) :
    ∃ pre rest n, text = pre ++ rest ∧ find (pre.getLast?.or before) rest = some (a, n) ∧
      s = rest.take n := by
  -- a place in the rest of the text is one in the text
  have further : ∀ {before : Option Char} {c : Char} {r : List Char},
      (∃ pre rest n, r = pre ++ rest ∧ find (pre.getLast?.or (some c)) rest = some (a, n) ∧
        s = rest.take n) →
      ∃ pre rest n, c :: r = pre ++ rest ∧ find (pre.getLast?.or before) rest = some (a, n) ∧
        s = rest.take n := by
    rintro before c r ⟨pre, rest, n, rfl, hfind, hs⟩
    refine ⟨c :: pre, rest, n, rfl, ?_, hs⟩
    rw [List.getLast?_cons, Option.some_or, ← Option.or_some]
    exact hfind
  induction text generalizing before skip with
  | nil =>
    cases before with
    | none =>
      simp only [segmentsFrom, Option.mem_toList, Option.map_eq_some_iff] at h
      obtain ⟨⟨a', n⟩, hfind, heq⟩ := h
      cases heq
      exact ⟨[], [], n, rfl, hfind, List.take_nil.symm⟩
    | some c =>
      rw [segmentsFrom_nil] at h
      cases h
  | cons c r ih =>
    cases skip with
    | succ skip => exact further (ih (by rwa [segmentsFrom] at h))
    | zero =>
      cases hfind : find before (c :: r) with
      | none =>
        rw [segmentsFrom_kept hfind, List.mem_cons] at h
        rcases h with h | h
        · cases h
        · exact further (ih h)
      | some found =>
        obtain ⟨a', n⟩ := found
        rw [segmentsFrom, hfind, List.mem_cons] at h
        rcases h with h | h
        · cases h
          exact ⟨[], c :: r, n, rfl, hfind, rfl⟩
        · exact further (ih h)

/-- **A find is never lost**: if something could be found anywhere in a text, a search of the text finds
something, there or in a stretch that covers the place. -/
theorem countFound_pos_of_find {pre rest : List Char} {before : Option Char} (hrest : rest ≠ [])
    (h : (find (pre.getLast?.or before) rest).isSome) :
    0 < countFound (segmentsFrom find before 0 (pre ++ rest)) := by
  have head : ∀ {before : Option Char} {c : Char} {r : List Char},
      (find before (c :: r)).isSome → 0 < countFound (segmentsFrom find before 0 (c :: r)) := by
    intro before c r hfind
    obtain ⟨⟨a, n⟩, hfind⟩ := Option.isSome_iff_exists.mp hfind
    rw [segmentsFrom, hfind]
    simp [countFound, Segment.isFound, Segment.value?]
  induction pre generalizing before with
  | nil =>
    obtain ⟨c, r, rfl⟩ := List.exists_cons_of_ne_nil hrest
    exact head h
  | cons c pre ih =>
    rw [List.cons_append]
    by_cases hhere : (find before (c :: (pre ++ rest))).isSome
    · exact head hhere
    · rw [segmentsFrom_kept (Option.not_isSome_iff_eq_none.mp hhere)]
      have hlater : 0 < countFound (segmentsFrom find (some c) 0 (pre ++ rest)) := by
        refine ih ?_
        rwa [List.getLast?_cons, Option.some_or, ← Option.or_some] at h
      simpa [countFound, Segment.isFound, Segment.value?] using hlater

/-- **A search finds nothing** exactly if nothing could be found anywhere. -/
theorem countFound_segments_eq_zero_iff (h : find.Advances) {text : List Char} :
    countFound (segments find text) = 0 ↔
      ∀ pre rest, text = pre ++ rest → find pre.getLast? rest = none := by
  constructor
  · rintro hzero pre rest rfl
    refine Option.not_isSome_iff_eq_none.mp fun hfind => ?_
    obtain ⟨⟨a, n⟩, hfound⟩ := Option.isSome_iff_exists.mp hfind
    have hrest : rest ≠ [] := by
      rintro rfl
      obtain ⟨hpos, hle⟩ := h _ _ _ _ hfound
      exact absurd (Nat.lt_of_lt_of_le hpos hle) (Nat.lt_irrefl 0)
    have hpos : 0 < countFound (segments find (pre ++ rest)) :=
      countFound_pos_of_find hrest (by rwa [Option.or_none])
    exact absurd hzero (Nat.ne_of_gt hpos)
  · intro hnothing
    rw [countFound, List.countP_eq_zero]
    intro p hp hfound
    match p with
    | .kept c => cases hfound
    | .found a s =>
      obtain ⟨pre, rest, n, htext, hfind, -⟩ := exists_find_of_mem hp
      rw [Option.or_none, hnothing pre rest htext] at hfind
      cases hfind

/-- **A search finds something** exactly if something can be found somewhere. -/
theorem any_isFound_segments_iff (h : find.Advances) {text : List Char} :
    (segments find text).any Segment.isFound = true ↔
      ∃ pre rest, text = pre ++ rest ∧ (find pre.getLast? rest).isSome = true := by
  have hcount : (segments find text).any Segment.isFound = true ↔ countFound (segments find text) ≠ 0 := by
    rw [countFound, ← Nat.pos_iff_ne_zero, List.countP_pos_iff, List.any_eq_true]
  rw [hcount, ne_eq, countFound_segments_eq_zero_iff h]
  simp only [Classical.not_forall, Option.isSome_iff_ne_none, exists_prop, ne_eq]

end PackageRefs.Text
