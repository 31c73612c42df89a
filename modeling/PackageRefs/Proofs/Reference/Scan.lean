/-
# What the scans read

The scans of a source look for a word, then for what may stand behind it, and then for a string in quotes.
This module says for the last two what text they read, so that later modules do not look into them:

* `quotedText?_eq_some_iff`: the string between two quotes;
* `dynamicSource?_eq_some_iff`, `requireArgument?_eq_some_iff`: a word with a parenthesis behind it;
* `importFinder_eq_some`: a match of the scan for imports, in either form.

Opening and closing quote need not be the same, and the string may hold a backslash: the scan does not know
about escapes.
-/
import PackageRefs.Proofs.Text.Search
import PackageRefs.Reference.Scan

namespace PackageRefs

open PackageRefs.Text

/-! ## 1. Strings -/

theorem isUnquoted_of_isQuote {c : Char} (h : isQuote c = true) : isUnquoted c = false := by
  simp [isUnquoted, h]

/-- **The text in quotes** is not empty, and holds neither quotes nor line feeds. -/
theorem quotedText?_eq_some_iff {text source rest : List Char} :
    quotedText? text = some (source, rest) ↔
      ∃ q d, text = q :: (source ++ d :: rest) ∧ isQuote q = true ∧ isQuote d = true ∧
        source ≠ [] ∧ ∀ c ∈ source, isUnquoted c = true := by
  constructor
  · intro h
    unfold quotedText? at h
    split at h
    · rename_i q r
      have hr : r.takeWhile isUnquoted ++ r.drop (r.takeWhile isUnquoted).length = r :=
        List.prefix_iff_eq_append.mp (List.takeWhile_prefix _)
      have hall : ∀ c ∈ r.takeWhile isUnquoted, isUnquoted c = true :=
        List.all_eq_true.mp List.all_takeWhile
      split at h
      · rename_i hquote
        dsimp only at h
        generalize r.takeWhile isUnquoted = inner at *
        split at h
        · rename_i x xs d more hdrop
          split at h
          · rename_i hclose
            simp only [Option.some.injEq, Prod.mk.injEq] at h
            obtain ⟨rfl, rfl⟩ := h
            rw [hdrop] at hr
            exact ⟨q, d, by rw [hr], hquote, hclose, by simp, hall⟩
          · cases h
        · cases h
      · cases h
    · cases h
  · rintro ⟨q, d, rfl, hquote, hclose, hne, hsource⟩
    have hinner : (source ++ d :: rest).takeWhile isUnquoted = source := by
      rw [List.takeWhile_append_of_pos hsource,
        List.takeWhile_cons_of_neg (by simp [isUnquoted_of_isQuote hclose]), List.append_nil]
    have hdrop : (source ++ d :: rest).drop source.length = d :: rest := List.drop_left
    obtain ⟨x, xs, rfl⟩ := List.exists_cons_of_ne_nil hne
    simp only [quotedText?, hquote, if_true, hinner, hdrop, hclose]

/-! ## 2. Words with a parenthesis, and imports -/

/-- What is read up to an opening parenthesis and the white space behind it. -/
theorem opening_eq_some_iff {word : String} {text opened : List Char} :
    ((after? word text).bind fun r => (after? "(" (afterBlanks r)).bind fun r => some (afterBlanks r)) =
        some opened ↔
      ∃ w r, text = word.toList ++ (w ++ '(' :: r) ∧ (∀ b ∈ w, isBlank b = true) ∧
        afterBlanks r = opened := by
  simp only [Option.bind_eq_some_iff, Option.some.injEq, after?_eq_some_iff]
  constructor
  · rintro ⟨r, rfl, r', hparen, rfl⟩
    obtain ⟨w, rfl, hw, -⟩ := afterBlanks_eq_cons_iff.mp hparen
    exact ⟨w, r', rfl, hw, rfl⟩
  · rintro ⟨w, r, rfl, hw, rfl⟩
    exact ⟨_, rfl, r, afterBlanks_eq_cons_iff.mpr ⟨w, rfl, hw, by decide⟩, rfl⟩

theorem dynamicSource?_eq_some_iff {text opened : List Char} :
    dynamicSource? text = some opened ↔
      ∃ w r, text = "import".toList ++ (w ++ '(' :: r) ∧ (∀ b ∈ w, isBlank b = true) ∧
        afterBlanks r = opened :=
  opening_eq_some_iff

theorem requireArgument?_eq_some_iff {text opened : List Char} :
    requireArgument? text = some opened ↔
      ∃ w r, text = "require".toList ++ (w ++ '(' :: r) ∧ (∀ b ∈ w, isBlank b = true) ∧
        afterBlanks r = opened :=
  opening_eq_some_iff

/-- **A match of the scan.**  It starts a word, and reads a string behind `import`, with or without a
parenthesis. -/
theorem importFinder_eq_some {before : Option Char} {text source : List Char} {n : Nat}
    (h : importFinder before text = some (source, n)) :
    startsWord before = true ∧ ∃ opened rest,
      (importSource? text = some opened ∨ dynamicSource? text = some opened) ∧
        quotedText? opened = some (source, rest) ∧ n = text.length - rest.length := by
  -- whichever form it is, the value and the length come from the string
  have hread : ∀ {opened? : Option (List Char)} {found : List Char × List Char},
      opened?.bind quotedText? = some found → upTo found.1 text found.2 = (source, n) →
        ∃ opened rest, opened? = some opened ∧ quotedText? opened = some (source, rest) ∧
          n = text.length - rest.length := by
    rintro opened? ⟨source', rest⟩ hfound hup
    obtain ⟨opened, hopened, hquoted⟩ := Option.bind_eq_some_iff.mp hfound
    obtain ⟨rfl, rfl⟩ := Prod.mk.inj hup
    exact ⟨opened, rest, hopened, hquoted, rfl⟩
  unfold importFinder at h
  split at h
  · rename_i hstarts
    refine ⟨hstarts, ?_⟩
    cases hstatic : (importSource? text).bind quotedText? with
    | some found =>
      rw [hstatic] at h
      obtain ⟨opened, rest, hopened, hrest⟩ := hread hstatic (Option.some.inj h)
      exact ⟨opened, rest, .inl hopened, hrest⟩
    | none =>
      rw [hstatic] at h
      obtain ⟨found, hdynamic, hup⟩ := Option.map_eq_some_iff.mp h
      obtain ⟨opened, rest, hopened, hrest⟩ := hread hdynamic hup
      exact ⟨opened, rest, .inr hopened, hrest⟩
  · cases h

end PackageRefs
