/-
# What a search passes over

Of two finds that overlap a search takes the one that starts first, and the other is passed over without a
trace.  Whether anything is lost by that depends on what is done with the finds.  Here only some of them are
good, and all others are thrown away after the search.

* `FoundAt` says what the finder finds at a place, whether the search comes by there or not.
* `Finder.Exposes` says that what starts inside a find is no good.
* `exists_enumerates`: then the search gives all that is good, in the order of the places, and nothing
  else.

The induction is on the search.  Behind a find it goes on with the places behind it, and those inside hold
nothing good.
-/
import PackageRefs.Proofs.Text.Search

namespace PackageRefs.Text

variable {α : Type} {find : Finder α} {good : α → Bool} {before : Option Char}

/-! ## 1. Places -/

/-- The finder finds the value at the place of a text, given the character before the text. -/
def FoundAt (find : Finder α) (before : Option Char) (text : List Char) (place : Nat) (a : α) : Prop :=
  ∃ pre rest n, text = pre ++ rest ∧ pre.length = place ∧
    find (pre.getLast?.or before) rest = some (a, n)

theorem foundAt_zero {text : List Char} {a : α} :
    FoundAt find before text 0 a ↔ ∃ n, find before text = some (a, n) := by
  constructor
  · rintro ⟨pre, rest, n, rfl, hlength, hfind⟩
    obtain rfl := List.length_eq_zero_iff.mp hlength
    exact ⟨n, hfind⟩
  · rintro ⟨n, hfind⟩
    exact ⟨[], text, n, rfl, rfl, hfind⟩

/-- Behind the first characters a place is a place of what is left. -/
theorem foundAt_append {s rest : List Char} {place : Nat} {a : α} :
    FoundAt find before (s ++ rest) (s.length + place) a ↔
      FoundAt find (s.getLast?.or before) rest place a := by
  constructor
  · rintro ⟨pre, rest', n, htext, hlength, hfind⟩
    obtain ⟨pre', rfl⟩ : s <+: pre := by
      refine List.prefix_of_prefix_length_le (List.prefix_append s rest) (htext ▸ List.prefix_append ..) ?_
      omega
    rw [List.append_assoc, List.append_cancel_left_eq] at htext
    rw [List.length_append, Nat.add_left_cancel_iff] at hlength
    rw [List.getLast?_append, Option.or_assoc] at hfind
    exact ⟨pre', rest', n, htext, hlength, hfind⟩
  · rintro ⟨pre, rest', n, rfl, rfl, hfind⟩
    refine ⟨s ++ pre, rest', n, (List.append_assoc ..).symm, List.length_append, ?_⟩
    rwa [List.getLast?_append, Option.or_assoc]

/-- A place before that divides the first characters. -/
theorem exists_of_foundAt {s rest : List Char} {place : Nat} {a : α}
    (h : FoundAt find before (s ++ rest) place a) (hplace : place < s.length) :
    ∃ u v n, s = u ++ v ∧ u.length = place ∧ v ≠ [] ∧
      find (u.getLast?.or before) (v ++ rest) = some (a, n) := by
  obtain ⟨pre, rest', n, htext, rfl, hfind⟩ := h
  obtain ⟨v, rfl⟩ : pre <+: s := by
    refine List.prefix_of_prefix_length_le (htext ▸ List.prefix_append ..) (List.prefix_append s rest) ?_
    omega
  rw [List.append_assoc, List.append_cancel_left_eq] at htext
  refine ⟨pre, v, n, rfl, rfl, ?_, htext ▸ hfind⟩
  rintro rfl
  simp at hplace

/-! ## 2. Good finds in order -/

/-- The list holds what is found and good, each with its place, in the order of the places. -/
structure Enumerates (find : Finder α) (good : α → Bool) (before : Option Char) (text : List Char)
    (found : List (Nat × α)) : Prop where
  ordered : (found.map Prod.fst).Pairwise (· < ·)
  mem_iff (place : Nat) (a : α) :
    (place, a) ∈ found ↔ FoundAt find before text place a ∧ good a = true

/-- A find with its place counted from further ahead. -/
def further (n : Nat) (f : Nat × α) : Nat × α := (n + f.1, f.2)

theorem map_snd_further (n : Nat) (found : List (Nat × α)) :
    (found.map (further n)).map Prod.snd = found.map Prod.snd := by
  rw [List.map_map]
  rfl

theorem mem_map_further {n place : Nat} {a : α} {found : List (Nat × α)} :
    (place, a) ∈ found.map (further n) ↔ ∃ later, place = n + later ∧ (later, a) ∈ found := by
  constructor
  · intro h
    obtain ⟨⟨later, b⟩, hmem, heq⟩ := List.mem_map.mp h
    obtain ⟨rfl, rfl⟩ := Prod.mk.inj heq
    exact ⟨later, rfl, hmem⟩
  · rintro ⟨later, rfl, hmem⟩
    exact List.mem_map.mpr ⟨_, hmem, rfl⟩

/-- What is good at the first places, and then what is good behind them. -/
theorem Enumerates.append {s rest : List Char} {front behind : List (Nat × α)}
    (hordered : (front.map Prod.fst).Pairwise (· < ·))
    (hfront : ∀ place a, (place, a) ∈ front ↔
      place < s.length ∧ FoundAt find before (s ++ rest) place a ∧ good a = true)
    (hbehind : Enumerates find good (s.getLast?.or before) rest behind) :
    Enumerates find good before (s ++ rest) (front ++ behind.map (further s.length)) where
  ordered := by
    rw [List.map_append, List.pairwise_append]
    refine ⟨hordered, ?_, ?_⟩
    · rw [List.map_map, List.pairwise_map]
      exact (List.pairwise_map.mp hbehind.ordered).imp fun h => Nat.add_lt_add_left h _
    · intro i hi j hj
      obtain ⟨⟨place, a⟩, hmem, rfl⟩ := List.mem_map.mp hi
      obtain ⟨⟨place', b⟩, hmem', rfl⟩ := List.mem_map.mp hj
      obtain ⟨later, rfl, -⟩ := mem_map_further.mp hmem'
      have hlt := ((hfront place a).mp hmem).1
      dsimp only
      omega
  mem_iff place a := by
    rw [List.mem_append, hfront, mem_map_further]
    constructor
    · rintro (⟨-, hfound⟩ | ⟨later, rfl, hmem⟩)
      · exact hfound
      · obtain ⟨hfound, hgood⟩ := (hbehind.mem_iff later a).mp hmem
        exact ⟨foundAt_append.mpr hfound, hgood⟩
    · rintro ⟨hfound, hgood⟩
      by_cases hlt : place < s.length
      · exact .inl ⟨hlt, hfound, hgood⟩
      · obtain ⟨later, rfl⟩ := Nat.exists_eq_add_of_le (Nat.le_of_not_lt hlt)
        exact .inr ⟨later, rfl, (hbehind.mem_iff later a).mpr ⟨foundAt_append.mp hfound, hgood⟩⟩

/-- **What starts inside a find is no good.** -/
def Finder.Exposes (find : Finder α) (good : α → Bool) : Prop :=
  ∀ before u v rest a b n, u ≠ [] → v ≠ [] →
    find before (u ++ v ++ rest) = some (a, (u ++ v).length) →
    find (u.getLast?.or before) (v ++ rest) = some (b, n) → good b = false

/-- By induction on the search. -/
theorem Searched.exists_enumerates {text : List Char} {pieces : List (Segment α)}
    (h : Searched find before text pieces) (hadvances : find.Advances) (hexposes : find.Exposes good) :
    ∃ found, Enumerates find good before text found ∧
      (pieces.filterMap Segment.value?).filter good = found.map Prod.snd := by
  induction h with
  | done before =>
    refine ⟨[], ⟨.nil, fun place a => ⟨nofun, ?_⟩⟩, rfl⟩
    rintro ⟨⟨pre, rest, n, htext, -, hfind⟩, -⟩
    obtain ⟨rfl, rfl⟩ := List.append_eq_nil_iff.mp htext.symm
    obtain ⟨hpos, hle⟩ := hadvances _ _ _ _ hfind
    exact absurd (Nat.lt_of_lt_of_le hpos hle) (Nat.lt_irrefl 0)
  | @kept before c r pieces nothing rest ih =>
    obtain ⟨found, hfound, hvalues⟩ := ih
    refine ⟨found.map (further 1), ?_, by rwa [map_snd_further]⟩
    change Enumerates find good before ([c] ++ r) ([] ++ found.map (further [c].length))
    refine .append .nil (fun place a => ⟨nofun, ?_⟩) hfound
    rintro ⟨hplace, hat, -⟩
    obtain rfl : place = 0 := Nat.lt_one_iff.mp hplace
    obtain ⟨n, hfind⟩ := foundAt_zero.mp hat
    rw [List.singleton_append, nothing] at hfind
    cases hfind
  | @found before a s rest pieces nonempty find_eq behind ih =>
    obtain ⟨found, hfound, hvalues⟩ := ih
    have hlast : s.getLast? = s.getLast?.or before := by
      rw [List.getLast?_eq_some_getLast nonempty, Option.some_or]
    rw [hlast] at hfound
    refine ⟨([(0, a)].filter fun f => good f.2) ++ found.map (further s.length), ?_, ?_⟩
    · refine Enumerates.append ?_ (fun place b => ?_) hfound
      · exact (List.pairwise_singleton ..).sublist (List.filter_sublist.map _)
      · rw [List.mem_filter, List.mem_singleton, Prod.mk.injEq]
        constructor
        · rintro ⟨⟨rfl, rfl⟩, hgood⟩
          exact ⟨List.length_pos_iff.mpr nonempty, foundAt_zero.mpr ⟨_, find_eq⟩, hgood⟩
        · rintro ⟨hplace, hat, hgood⟩
          obtain ⟨u, v, n, rfl, rfl, hv, hfind⟩ := exists_of_foundAt hat hplace
          by_cases hu : u = []
          · subst hu
            obtain ⟨rfl, -⟩ := Prod.mk.inj (Option.some.inj (hfind.symm.trans find_eq))
            exact ⟨⟨rfl, rfl⟩, hgood⟩
          · rw [hexposes _ u v rest a b n hu hv find_eq hfind] at hgood
            cases hgood
    · rw [List.map_append, map_snd_further, ← hvalues]
      by_cases hgood : good a = true <;> simp [Segment.value?, hgood]

/-- **Nothing good is passed over**, if what starts inside a find is no good: a search gives what is good at
any place of a text, in the order of the places. -/
theorem exists_enumerates (hadvances : find.Advances) (hexposes : find.Exposes good) (text : List Char) :
    ∃ found, Enumerates find good none text found ∧ (findAll find text).filter good = found.map Prod.snd :=
  (searched_segmentsFrom hadvances none text).exists_enumerates hadvances hexposes

end PackageRefs.Text
