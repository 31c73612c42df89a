/-
# What the searches for statements find

The searches follow patterns from left to right: a word, characters of some kind, a string in quotes that holds
the package, and what comes behind.

* `importStatement_eq_some_iff`: what is an import (`IsImport`).
* `requireDeclaration_eq_some_iff`: what sets variables (`IsDeclaration`).
* `requireDeclaration_eq_some`, `requireStatement_eq_some`: variables and calls have a parenthesis, a string in
  quotes and a parenthesis (`IsSetting`).

**How far they see.**  White space and names may go over line breaks, so a find may start on one line and end on
another.  `Stops` says of a text that no find that starts before it goes on into it, but for an import whose
closing quote is its first character.  Before such a text a search finds what it would find without it
(`Stops.importStatement_iff`, `Stops.requireDeclaration_eq`).

**Parts of a text.**  A search whose finds end with a part of the text puts comments around parts of that part
(`Reworked`) and goes on behind it (`commentedFrom_append`).
-/
import PackageRefs.Proofs.Reference.Call
import PackageRefs.Proofs.Removal.Insertion

namespace PackageRefs

open PackageRefs.Text

/-! ## 1. Text in quotes -/

namespace Text

variable {phrase text rest : List Char}

theorem isQuote_iff {c : Char} : isQuote c = true ↔ c = '"' ∨ c = '\'' := by
  simp [isQuote]

theorem closing?_eq_some_iff {inside close : Char → Bool} {here : List Char}
    (hclose : ∀ c, close c = true → inside c = false) :
    enclosing?.closing? inside close phrase here = some rest ↔ ∃ more d, here = phrase ++ (more ++ d :: rest) ∧
      (∀ c ∈ more, inside c = true) ∧ close d = true := by
  unfold enclosing?.closing?
  constructor
  · intro h
    split at h
    · rename_i hstart
      obtain ⟨behind, rfl⟩ := List.isPrefixOf_iff_prefix.mp hstart
      rw [List.drop_left] at h
      split at h
      · rename_i d r hbehind
        split at h
        · rename_i hd
          cases h
          refine ⟨behind.takeWhile inside, d, ?_, List.all_eq_true.mp List.all_takeWhile, hd⟩
          rw [← hbehind, List.takeWhile_append_dropWhile]
        · cases h
      · cases h
    · cases h
  · rintro ⟨more, d, rfl, hmore, hd⟩
    rw [if_pos (List.isPrefixOf_iff_prefix.mpr (List.prefix_append ..)), List.drop_left,
      List.dropWhile_append_of_pos hmore, List.dropWhile_cons_of_neg (by simp [hclose d hd])]
    simp [hd]

theorem exists_closing? {inside close : Char → Bool} {n : Nat}
    (h : enclosing? inside close phrase text n = some rest) :
    ∃ k ≤ n, enclosing?.closing? inside close phrase (text.drop k) = some rest := by
  induction n with
  | zero => exact ⟨0, Nat.le_refl 0, h⟩
  | succ n ih =>
    rw [enclosing?] at h
    split at h
    · rename_i hclosing
      exact ⟨n + 1, Nat.le_refl _, hclosing.trans h⟩
    · obtain ⟨k, hk, hclosing⟩ := ih h
      exact ⟨k, Nat.le_succ_of_le hk, hclosing⟩

theorem isSome_enclosing?_of_drop {inside close : Char → Bool} {n k : Nat} (hk : k ≤ n)
    (h : enclosing?.closing? inside close phrase (text.drop k) = some rest) :
    (enclosing? inside close phrase text n).isSome := by
  induction n with
  | zero =>
    obtain rfl := Nat.le_zero.mp hk
    exact isSome_enclosing? h 0
  | succ n ih =>
    rw [enclosing?]
    split
    · rfl
    · rename_i hnone
      rcases Nat.le_succ_iff.mp hk with hk | rfl
      · exact ih hk
      · rw [h] at hnone
        cases hnone

theorem quoted?_eq_some (hphrase : ∀ c ∈ phrase, isUnquoted c = true) (h : quoted? phrase text = some rest) :
    ∃ q inner d, text = q :: (inner ++ d :: rest) ∧ isQuote q = true ∧ isQuote d = true ∧
      (∀ c ∈ inner, isUnquoted c = true) ∧ phrase <:+: inner := by
  unfold quoted? at h
  split at h
  · rename_i q r
    split at h
    · rename_i hq
      obtain ⟨k, hk, hclosing⟩ := exists_closing? h
      obtain ⟨more, d, hdrop, hmore, hd⟩ :=
        (closing?_eq_some_iff fun c hc => isUnquoted_of_isQuote hc).mp hclosing
      refine ⟨q, r.take k ++ (phrase ++ more), d, ?_, hq, hd, ?_, ⟨r.take k, more, by simp⟩⟩
      · rw [List.append_assoc, List.append_assoc, ← hdrop, List.take_append_drop]
      · intro c hc
        rcases List.mem_append.mp hc with hc | hc
        · have hstart : r.take k <+: r.takeWhile isUnquoted :=
            List.prefix_of_prefix_length_le (List.take_prefix k r) (List.takeWhile_prefix _)
              (Nat.le_trans (List.length_take_le k r) hk)
          exact List.all_eq_true.mp List.all_takeWhile c (hstart.subset hc)
        · exact (List.mem_append.mp hc).elim (hphrase c) (hmore c)
    · cases h
  · cases h

/-- **A phrase between quotes** is found exactly if a string in quotes starts here that holds it. -/
theorem quoted?_eq_some_iff (hphrase : ∀ c ∈ phrase, isUnquoted c = true) :
    quoted? phrase text = some rest ↔ ∃ q inner d, text = q :: (inner ++ d :: rest) ∧ isQuote q = true ∧
      isQuote d = true ∧ (∀ c ∈ inner, isUnquoted c = true) ∧ phrase <:+: inner := by
  refine ⟨quoted?_eq_some hphrase, ?_⟩
  rintro ⟨q, inner, d, rfl, hq, hd, hinner, a, b, rfl⟩
  have hstop : isUnquoted d = false := isUnquoted_of_isQuote hd
  have hclosing : enclosing?.closing? isUnquoted isQuote phrase
      ((a ++ phrase ++ b ++ d :: rest).drop a.length) = some rest := by
    refine (closing?_eq_some_iff fun c hc => isUnquoted_of_isQuote hc).mpr ⟨b, d, by simp, ?_, hd⟩
    exact fun c hc => hinner c (by simp [hc])
  have hlength : a.length ≤ ((a ++ phrase ++ b ++ d :: rest).takeWhile isUnquoted).length := by
    rw [List.takeWhile_append_of_pos hinner, List.takeWhile_cons_of_neg (by simp [hstop]), List.append_nil,
      List.append_assoc, List.length_append]
    exact Nat.le_add_right ..
  have hfound : (quoted? phrase (q :: (a ++ phrase ++ b ++ d :: rest))).isSome := by
    rw [quoted?, if_pos hq]
    exact isSome_enclosing?_of_drop hlength hclosing
  obtain ⟨rest', hrest⟩ := Option.isSome_iff_exists.mp hfound
  obtain ⟨q', inner', d', htext, -, hd', hinner', -⟩ := quoted?_eq_some hphrase hrest
  -- both strings end at the first quote
  have hsame := eq_of_first (p := fun c => isUnquoted c = false) (fun c hc => by simp [hinner' c hc])
    (fun c hc => by simp [hinner c hc]) (isUnquoted_of_isQuote hd') hstop (List.cons.inj htext).2
  rw [hrest, hsame.2]

end Text

section

variable {package text rest : List Char} {before : Option Char} {lead n : Nat}

/-! ## 2. Imports -/

theorem toList_import : "import".toList = ['i', 'm', 'p', 'o', 'r', 't'] := rfl

theorem isImportChar_of_isQuote {c : Char} (h : isQuote c = true) : isImportChar c = false := by
  rcases isQuote_iff.mp h with rfl | rfl <;> decide

theorem isImportChar_of_isBlank {c : Char} (h : isBlank c = true) : isImportChar c = true := by
  simp [isImportChar, h]

/-- The text is an import whose source holds the package. -/
inductive IsImport (package : List Char) : List Char → Prop
  | intro {names inner : List Char} {q d : Char} (hnames : ∀ c ∈ names, isImportChar c = true)
      (hfrom : (names.all isBlank || endsWithFrom names) = true) (opening : isQuote q = true)
      (closing : isQuote d = true) (unquoted : ∀ c ∈ inner, isUnquoted c = true) (holds : package <:+: inner) :
      IsImport package ("import".toList ++ (names ++ q :: (inner ++ [d])))

theorem importStatement_eq_some_iff (hpackage : ∀ c ∈ package, isUnquoted c = true) :
    importStatement package before text = some (lead, n) ↔ startsWord before = true ∧ lead = 0 ∧
      ∃ statement rest, text = statement ++ rest ∧ IsImport package statement ∧
        n = text.length - (afterStatement rest).length := by
  unfold importStatement importSource?
  constructor
  · intro h
    split at h
    · rename_i hstarts
      simp only [Option.bind_eq_bind, Option.bind_eq_some_iff, Option.pure_def, Option.some.injEq] at h
      obtain ⟨r, ⟨s, hword, hnames⟩, behind, hquoted, hup⟩ := h
      obtain rfl := after?_eq_some_iff.mp hword
      split at hnames
      · rename_i hfrom
        cases hnames
        obtain ⟨q, inner, d, hrest, hq, hd, hinner, hholds⟩ := quoted?_eq_some hpackage hquoted
        obtain ⟨rfl, rfl⟩ := Prod.mk.inj hup
        refine ⟨hstarts, rfl, _, behind, ?_, .intro (List.all_eq_true.mp List.all_takeWhile) hfrom hq hd hinner hholds,
          rfl⟩
        have hsplit : s = s.takeWhile isImportChar ++ q :: (inner ++ d :: behind) := by
          have htake := List.prefix_iff_eq_take.mp (List.takeWhile_prefix isImportChar (l := s))
          rw [← hrest]
          conv_lhs => rw [← List.take_append_drop (s.takeWhile isImportChar).length s, ← htake]
        simpa using hsplit
      · cases hnames
    · cases h
  · rintro ⟨hstarts, rfl, statement, rest, rfl, himport, rfl⟩
    cases himport with
    | @intro names inner q d hnames hfrom hq hd hinner hholds =>
      have htake : (names ++ q :: (inner ++ d :: rest)).takeWhile isImportChar = names := by
        rw [List.takeWhile_append_of_pos hnames, List.takeWhile_cons_of_neg (by simp [isImportChar_of_isQuote hq]),
          List.append_nil]
      have hquoted : quoted? package (q :: (inner ++ d :: rest)) = some rest :=
        (quoted?_eq_some_iff hpackage).mpr ⟨q, inner, d, rfl, hq, hd, hinner, hholds⟩
      have htext : "import".toList ++ (names ++ q :: (inner ++ [d])) ++ rest =
          "import".toList ++ (names ++ q :: (inner ++ d :: rest)) := by simp
      rw [htext, if_pos hstarts]
      simp only [Option.bind_eq_bind, after?_eq_some_iff.mpr rfl, Option.bind_some, htake, hfrom, if_true,
        List.drop_left, hquoted, Option.pure_def, upTo]

theorem importStatement_eq_none {c : Char} (hc : c ≠ 'i') (before : Option Char) (r : List Char) :
    importStatement package before (c :: r) = none := by
  simp [importStatement, importSource?, after?, toList_import, hc.symm]

/-- An import has its quote before anything else that may not stand among the names. -/
theorem importStatement_eq_none_of_names (hpackage : ∀ c ∈ package, isUnquoted c = true) {z r : List Char} {x : Char}
    (hz : ∀ c ∈ z, isImportChar c = true) (hx : isImportChar x = false) (hquote : isQuote x = false) :
    importStatement package before (z ++ x :: r) = none := by
  refine Option.eq_none_iff_forall_ne_some.mpr fun (lead, n) hfound => ?_
  obtain ⟨-, -, statement, rest, htext, himport, -⟩ := (importStatement_eq_some_iff hpackage).mp hfound
  cases himport with
  | @intro names inner q d hnames hfrom hq hd =>
    have htext : z ++ x :: r = ("import".toList ++ names) ++ q :: (inner ++ d :: rest) := by simpa using htext
    have hword : ∀ c ∈ "import".toList ++ names, isImportChar c = true := by
      intro c hc
      rcases List.mem_append.mp hc with hc | hc
      · exact List.all_eq_true.mp (by decide : "import".toList.all isImportChar = true) c hc
      · exact hnames c hc
    obtain ⟨rfl, -⟩ := eq_of_first (p := fun c => isImportChar c = false) (fun c hc => by simp [hword c hc])
      (fun c hc => by simp [hz c hc]) (isImportChar_of_isQuote hq) hx htext
    rw [(List.cons.inj (List.append_cancel_left htext)).1, hq] at hquote
    cases hquote

theorem IsImport.exists_quoted (hpackage : ∀ c ∈ package, isUnquoted c = true) {statement : List Char}
    (h : IsImport package statement) (rest : List Char) :
    ∃ v, v <:+ statement ++ rest ∧ quoted? package v = some rest := by
  cases h with
  | @intro names inner q d _ _ hq hd hinner hholds =>
    exact ⟨q :: (inner ++ d :: rest), ⟨"import".toList ++ names, by simp⟩,
      (quoted?_eq_some_iff hpackage).mpr ⟨q, inner, d, rfl, hq, hd, hinner, hholds⟩⟩

theorem afterStatement_append {t : List Char} {x : Char} (hx : x ≠ ' ' ∧ x ≠ '\t' ∧ x ≠ ';') (more : List Char) :
    afterStatement (t ++ x :: more) = afterStatement t ++ x :: more := by
  have hspaces : afterSpaces (t ++ x :: more) = afterSpaces t ++ x :: more := by
    unfold afterSpaces
    rw [List.dropWhile_append, List.dropWhile_cons_of_neg (by simp [hx.1, hx.2.1])]
    split
    · rename_i h
      rw [List.isEmpty_iff.mp h]
      rfl
    · rfl
  unfold afterStatement
  rw [hspaces]
  cases afterSpaces t with
  | nil =>
    rw [List.nil_append]
    split
    · rename_i heq
      exact absurd (List.cons.inj heq).1 hx.2.2
    · rfl
  | cons c r =>
    rw [List.cons_append]
    by_cases hc : c = ';'
    · subst hc
      rfl
    · split
      · rename_i heq
        exact absurd (List.cons.inj heq).1 hc
      · split
        · rename_i heq
          exact absurd (List.cons.inj heq).1 hc
        · rfl

/-! ## 3. Calls -/

/-- A character that may stand before the parenthesis of a call that sets a variable. -/
def isSettingChar (c : Char) : Bool := isTargetChar c || c == '='

theorem isSettingChar_of_isBlank {c : Char} (h : isBlank c = true) : isSettingChar c = true := by
  simp [isSettingChar, isTargetChar, h]

/-- The text is a call with a string that holds the package. -/
inductive IsSetting (package : List Char) : List Char → Prop
  | intro {front b c inner : List Char} {q d : Char} (hfront : ∀ x ∈ front, isSettingChar x = true)
      (blank_behind : ∀ x ∈ b, isBlank x = true) (opening : isQuote q = true) (closing : isQuote d = true)
      (unquoted : ∀ x ∈ inner, isUnquoted x = true) (holds : package <:+: inner)
      (blank_last : ∀ x ∈ c, isBlank x = true) :
      IsSetting package (front ++ '(' :: (b ++ q :: (inner ++ d :: (c ++ [')']))))

theorem IsSetting.append {call front : List Char} (h : IsSetting package call)
    (hfront : ∀ x ∈ front, isSettingChar x = true) : IsSetting package (front ++ call) := by
  cases h with
  | intro hfront' hb hq hd hinner hholds hc =>
    rw [← List.append_assoc]
    exact .intro (fun x hx => (List.mem_append.mp hx).elim (hfront x) (hfront' x)) hb hq hd hinner hholds hc

theorem IsSetting.exists_quoted (hpackage : ∀ c ∈ package, isUnquoted c = true) {call : List Char}
    (h : IsSetting package call) (rest : List Char) :
    ∃ v r, v <:+ call ++ rest ∧ quoted? package v = some r := by
  cases h with
  | @intro front b c inner q d _ _ hq hd hinner hholds =>
    exact ⟨q :: (inner ++ d :: (c ++ ')' :: rest)), c ++ ')' :: rest, ⟨front ++ '(' :: b, by simp⟩,
      (quoted?_eq_some_iff hpackage).mpr ⟨q, inner, d, rfl, hq, hd, hinner, hholds⟩⟩

theorem IsSetting.mem_opening {call : List Char} (h : IsSetting package call) : '(' ∈ call := by
  cases h
  simp

/-- The text is a call of `require` whose string holds the package. -/
inductive IsRequire (package : List Char) : List Char → Prop
  | intro {a b inner c : List Char} {q d : Char} (blank_before : ∀ x ∈ a, isBlank x = true)
      (blank_behind : ∀ x ∈ b, isBlank x = true) (opening : isQuote q = true) (closing : isQuote d = true)
      (unquoted : ∀ x ∈ inner, isUnquoted x = true) (holds : package <:+: inner)
      (blank_last : ∀ x ∈ c, isBlank x = true) :
      IsRequire package ("require".toList ++ (a ++ '(' :: (b ++ q :: (inner ++ d :: (c ++ [')'])))))

theorem IsRequire.isSetting {call : List Char} (h : IsRequire package call) : IsSetting package call := by
  cases h with
  | @intro a b inner c q d ha hb hq hd hinner hholds hc =>
    rw [← List.append_assoc]
    refine .intro (fun x hx => ?_) hb hq hd hinner hholds hc
    rcases List.mem_append.mp hx with hx | hx
    · exact List.all_eq_true.mp (by decide : "require".toList.all isSettingChar = true) x hx
    · exact isSettingChar_of_isBlank (ha x hx)

theorem requireOf?_eq_some_iff (hpackage : ∀ c ∈ package, isUnquoted c = true) :
    requireOf? package text = some rest ↔ ∃ call, text = call ++ rest ∧ IsRequire package call := by
  unfold requireOf?
  simp only [Option.bind_eq_bind, Option.bind_eq_some_iff]
  constructor
  · rintro ⟨argument, hargument, behind, hquoted, hclose⟩
    obtain ⟨a, r, rfl, ha, hr⟩ := requireArgument?_eq_some_iff.mp hargument
    obtain ⟨q, inner, d, rfl, hq, hd, hinner, hholds⟩ := quoted?_eq_some hpackage hquoted
    obtain ⟨b, rfl, hb, -⟩ := afterBlanks_eq_cons_iff.mp hr
    have hclose : afterBlanks behind = ')' :: rest := after?_eq_some_iff.mp hclose
    obtain ⟨c, rfl, hc, -⟩ := afterBlanks_eq_cons_iff.mp hclose
    exact ⟨_, by simp, .intro ha hb hq hd hinner hholds hc⟩
  · rintro ⟨call, rfl, hcall⟩
    cases hcall with
    | @intro a b inner c q d ha hb hq hd hinner hholds hc =>
      have hblank : isBlank q = false := by
        rcases isQuote_iff.mp hq with rfl | rfl <;> decide
      refine ⟨q :: (inner ++ d :: (c ++ ')' :: rest)), requireArgument?_eq_some_iff.mpr ⟨a, _, by simp, ha,
        afterBlanks_eq_cons_iff.mpr ⟨b, rfl, hb, hblank⟩⟩, c ++ ')' :: rest, ?_, ?_⟩
      · exact (quoted?_eq_some_iff hpackage).mpr ⟨q, inner, d, rfl, hq, hd, hinner, hholds⟩
      · exact after?_eq_some_iff.mpr (afterBlanks_eq_cons_iff.mpr ⟨c, rfl, hc, by decide⟩)

/-- The words that declare variables. -/
def declaringWords : List (List Char) := ["const".toList, "let".toList, "var".toList]

theorem declaringWord?_eq_some_iff : declaringWord? text = some rest ↔ ∃ w ∈ declaringWords, text = w ++ rest := by
  simp only [declaringWord?, Option.orElse_eq_or, Option.or_eq_some_iff]
  constructor
  · rintro (h | ⟨-, h | ⟨-, h⟩⟩)
    · exact ⟨_, by decide, after?_eq_some_iff.mp h⟩
    · exact ⟨_, by decide, after?_eq_some_iff.mp h⟩
    · exact ⟨_, by decide, after?_eq_some_iff.mp h⟩
  · rintro ⟨w, hw, rfl⟩
    simp only [declaringWords, List.mem_cons, List.not_mem_nil, or_false] at hw
    rcases hw with rfl | rfl | rfl
    · exact .inl (after?_eq_some_iff.mpr rfl)
    · exact .inr ⟨rfl, .inl (after?_eq_some_iff.mpr rfl)⟩
    · exact .inr ⟨rfl, .inr ⟨rfl, after?_eq_some_iff.mpr rfl⟩⟩

/-- The text sets variables by a call of `require` whose string holds the package. -/
inductive IsDeclaration (package : List Char) : List Char → Prop
  | intro {w targets blanks call : List Char} (word : w ∈ declaringWords)
      (chars : ∀ c ∈ targets, isTargetChar c = true) (blank_first : targets.head?.any isBlank = true)
      (two_chars : 2 ≤ targets.length) (blank : ∀ c ∈ blanks, isBlank c = true) (called : IsRequire package call) :
      IsDeclaration package (w ++ (targets ++ '=' :: (blanks ++ call)))

theorem IsDeclaration.isSetting {statement : List Char} (h : IsDeclaration package statement) :
    IsSetting package statement := by
  cases h with
  | @intro w targets blanks call hw htargets _ _ hblanks hcall =>
    have hchars : ∀ x ∈ w ++ (targets ++ '=' :: blanks), isSettingChar x = true := by
      have hwords : declaringWords.all (·.all isSettingChar) = true := by decide
      intro x hx
      simp only [List.mem_append, List.mem_cons] at hx
      rcases hx with hx | hx | rfl | hx
      · exact List.all_eq_true.mp (List.all_eq_true.mp hwords w hw) x hx
      · simp [isSettingChar, htargets x hx]
      · decide
      · exact isSettingChar_of_isBlank (hblanks x hx)
    simpa using hcall.isSetting.append hchars

theorem requireDeclaration_eq_some_iff (hpackage : ∀ c ∈ package, isUnquoted c = true) :
    requireDeclaration package before text = some (lead, n) ↔ startsWord before = true ∧ lead = 0 ∧
      ∃ statement rest, text = statement ++ rest ∧ IsDeclaration package statement ∧
        n = text.length - (afterStatement rest).length := by
  unfold requireDeclaration
  constructor
  · intro h
    split at h
    · rename_i hstarts
      obtain ⟨r, hword, h⟩ := Option.bind_eq_some_iff.mp h
      obtain ⟨w, hw, rfl⟩ := declaringWord?_eq_some_iff.mp hword
      dsimp only at h
      split at h
      · rename_i htargets
        obtain ⟨hhead, hlength⟩ := Bool.and_eq_true_iff.mp htargets
        obtain ⟨s, hequals, h⟩ := Option.bind_eq_some_iff.mp h
        obtain ⟨rest, hrequire, h⟩ := Option.bind_eq_some_iff.mp h
        cases h
        obtain ⟨call, hbehind, hcall⟩ := (requireOf?_eq_some_iff hpackage).mp hrequire
        have htake := List.prefix_iff_eq_take.mp (List.takeWhile_prefix isTargetChar (l := r))
        have hequals : r.drop (r.takeWhile isTargetChar).length = '=' :: s := after?_eq_some_iff.mp hequals
        have hr : r = r.takeWhile isTargetChar ++ '=' :: (s.takeWhile isBlank ++ (call ++ rest)) := by
          rw [← hbehind, afterBlanks, List.takeWhile_append_dropWhile]
          conv_lhs => rw [← List.take_append_drop (r.takeWhile isTargetChar).length r, ← htake, hequals]
        refine ⟨hstarts, rfl, _, rest, ?_, .intro hw (List.all_eq_true.mp List.all_takeWhile) hhead
          (by simpa using hlength) (List.all_eq_true.mp (List.all_takeWhile (l := s))) hcall, rfl⟩
        conv_lhs => rw [hr]
        simp
      · cases h
    · cases h
  · rintro ⟨hstarts, rfl, statement, rest, rfl, hdeclaration, rfl⟩
    cases hdeclaration with
    | @intro w targets blanks call hw htargets hhead hlength hblanks hcall =>
      have hrequire : afterBlanks (blanks ++ (call ++ rest)) = call ++ rest := by
        cases hcall with
        | intro => exact afterBlanks_eq_cons_iff.mpr ⟨blanks, rfl, hblanks, by decide⟩
      have htake : (targets ++ '=' :: (blanks ++ (call ++ rest))).takeWhile isTargetChar = targets := by
        rw [List.takeWhile_append_of_pos htargets, List.takeWhile_cons_of_neg (by decide), List.append_nil]
      have hword : declaringWord? (w ++ (targets ++ '=' :: (blanks ++ (call ++ rest)))) =
          some (targets ++ '=' :: (blanks ++ (call ++ rest))) :=
        declaringWord?_eq_some_iff.mpr ⟨w, hw, rfl⟩
      have htext : w ++ (targets ++ '=' :: (blanks ++ call)) ++ rest =
          w ++ (targets ++ '=' :: (blanks ++ (call ++ rest))) := by simp
      have hequals : after? "=" ('=' :: (blanks ++ (call ++ rest))) = some (blanks ++ (call ++ rest)) :=
        after?_eq_some_iff.mpr rfl
      rw [htext, if_pos hstarts]
      simp only [Option.bind_eq_bind, hword, Option.bind_some, htake, hhead, hlength, decide_true, Bool.and_self,
        if_true, List.drop_left, hequals, hrequire, (requireOf?_eq_some_iff hpackage).mpr ⟨call, rfl, hcall⟩,
        Option.pure_def, upTo]

theorem requireDeclaration_eq_some (hpackage : ∀ c ∈ package, isUnquoted c = true)
    (h : requireDeclaration package before text = some (lead, n)) :
    ∃ call rest, text = call ++ rest ∧ IsSetting package call ∧ n = text.length - (afterStatement rest).length := by
  obtain ⟨-, -, statement, rest, htext, hdeclaration, hn⟩ := (requireDeclaration_eq_some_iff hpackage).mp h
  exact ⟨statement, rest, htext, hdeclaration.isSetting, hn⟩

theorem requireDeclaration_eq_none {c : Char} (hc : c ≠ 'c' ∧ c ≠ 'l' ∧ c ≠ 'v') (before : Option Char) (r : List Char) :
    requireDeclaration package before (c :: r) = none := by
  have hconst : "const".toList = ['c', 'o', 'n', 's', 't'] := rfl
  have hlet : "let".toList = ['l', 'e', 't'] := rfl
  have hvar : "var".toList = ['v', 'a', 'r'] := rfl
  simp [requireDeclaration, declaringWord?, after?, hconst, hlet, hvar, hc.1.symm, hc.2.1.symm, hc.2.2.symm]

/-- What sets a variable has a parenthesis before anything else that may not stand in front of one. -/
theorem requireDeclaration_eq_none_of_setting (hpackage : ∀ c ∈ package, isUnquoted c = true) {z r : List Char}
    {x : Char} (hz : ∀ c ∈ z, isSettingChar c = true) (hx : isSettingChar x = false) (hopening : x ≠ '(') :
    requireDeclaration package before (z ++ x :: r) = none := by
  refine Option.eq_none_iff_forall_ne_some.mpr fun (lead, n) hfound => ?_
  obtain ⟨call, rest, htext, hsetting, -⟩ := requireDeclaration_eq_some hpackage hfound
  cases hsetting with
  | @intro front b c inner q d hfront =>
    have htext : z ++ x :: r = front ++ '(' :: (b ++ q :: (inner ++ d :: (c ++ ')' :: rest))) := by
      simpa using htext
    have hstop : isSettingChar '(' = false := by decide
    obtain ⟨rfl, -⟩ := eq_of_first (p := fun c => isSettingChar c = false) (fun c hc => by simp [hfront c hc])
      (fun c hc => by simp [hz c hc]) hstop hx htext
    exact hopening (List.cons.inj (List.append_cancel_left htext)).1

theorem requireStatement_eq_some (hpackage : ∀ c ∈ package, isUnquoted c = true)
    (h : requireStatement package before text = some (lead, n)) :
    startsLine before = true ∧ ∃ call rest, text = call ++ rest ∧ IsSetting package call := by
  unfold requireStatement at h
  split at h
  · rename_i hstarts
    obtain ⟨rest, hrequire, h⟩ := Option.bind_eq_some_iff.mp h
    obtain ⟨call, hcall, hrequire⟩ := (requireOf?_eq_some_iff hpackage).mp hrequire
    refine ⟨hstarts, text.takeWhile (fun c => c == ' ' || c == '\t') ++ call, rest, ?_, hrequire.isSetting.append ?_⟩
    · rw [List.append_assoc, ← hcall, afterSpaces, List.takeWhile_append_dropWhile]
    · intro x hx
      have hspace : (x == ' ' || x == '\t') = true := by
        simpa using List.all_eq_true.mp List.all_takeWhile x hx
      rw [Bool.or_eq_true, beq_iff_eq, beq_iff_eq] at hspace
      rcases hspace with rfl | rfl <;> decide
  · cases h

/-! ## 4. What finds cannot reach into -/

/-- A character of a part stands in the first half of a text, or not. -/
theorem split_at {t back a more : List Char} {y : Char} (h : t ++ back = a ++ y :: more) :
    (∃ m, a = t ++ m ∧ back = m ++ y :: more) ∨ ∃ t', t = a ++ y :: t' ∧ t' ++ back = more := by
  rcases List.append_eq_append_iff.mp h with ⟨m, rfl, hback⟩ | ⟨m, rfl, hm⟩
  · exact .inl ⟨m, rfl, hback⟩
  · cases m with
    | nil => exact .inl ⟨[], by simp, hm.symm⟩
    | cons c m =>
      obtain ⟨rfl, rfl⟩ := List.cons.inj hm
      exact .inr ⟨m, rfl, rfl⟩

/-- No find that starts before the text goes on into it, but for one that ends with its first quote. -/
structure Stops (package back : List Char) : Prop where
  sources : ∀ u v, back = u ++ v → (∀ c ∈ u, isImportChar c = true) → quoted? package v = none
  calls : ∀ u w v, back = u ++ '(' :: (w ++ v) → (∀ c ∈ u, isSettingChar c = true) →
    (∀ c ∈ w, isBlank c = true) → quoted? package v = none
  strings : ∀ u d v, back = u ++ d :: v → (∀ c ∈ u, isUnquoted c = true) → isQuote d = true → u = []
  arguments : ∀ w v, back = w ++ ')' :: v → ¬∀ c ∈ w, isBlank c = true ∨ isQuote c = true
  ends : ∀ c v, back = c :: v → c ≠ ' ' ∧ c ≠ '\t' ∧ c ≠ ';'

theorem stops_nil : Stops package [] := by
  constructor <;> simp [quoted?]

variable {t back : List Char}

/-- An import that starts before the text ends before it, or with its first quote. -/
theorem Stops.of_isImport (hstops : Stops package back) (hpackage : ∀ c ∈ package, isUnquoted c = true)
    {statement behind : List Char} (himport : IsImport package statement) (h : t ++ back = statement ++ behind) :
    (∃ t', t = statement ++ t' ∧ behind = t' ++ back) ∨
      ∃ d, isQuote d = true ∧ statement = t ++ [d] ∧ back = d :: behind := by
  cases himport with
  | @intro names inner q d hnames hfrom hq hd hinner hholds =>
    have h : t ++ back = ("import".toList ++ names) ++ q :: (inner ++ d :: behind) := by simpa using h
    rcases split_at h with ⟨m, hm, hback⟩ | ⟨t₁, rfl, h₁⟩
    · have hquoted : quoted? package (q :: (inner ++ d :: behind)) = some behind :=
        (quoted?_eq_some_iff hpackage).mpr ⟨q, inner, d, rfl, hq, hd, hinner, hholds⟩
      have hchars : ∀ c ∈ m, isImportChar c = true := by
        intro c hc
        have hmem : c ∈ "import".toList ++ names := hm ▸ by simp [hc]
        rcases List.mem_append.mp hmem with hmem | hmem
        · exact List.all_eq_true.mp (by decide : "import".toList.all isImportChar = true) c hmem
        · exact hnames c hmem
      rw [hstops.sources m _ hback hchars] at hquoted
      cases hquoted
    · rcases split_at h₁ with ⟨m, rfl, hback⟩ | ⟨t', rfl, hbehind⟩
      · obtain rfl := hstops.strings m d behind hback (fun c hc => hinner c (by simp [hc])) hd
        exact .inr ⟨d, hd, by simp, hback⟩
      · exact .inl ⟨t', by simp, hbehind.symm⟩

/-- A call that starts before the text ends before it. -/
theorem Stops.of_isSetting (hstops : Stops package back) (hpackage : ∀ c ∈ package, isUnquoted c = true)
    {call behind : List Char} (hsetting : IsSetting package call) (h : t ++ back = call ++ behind) :
    ∃ t', t = call ++ t' ∧ behind = t' ++ back := by
  cases hsetting with
  | @intro front b c inner q d hfront hb hq hd hinner hholds hc =>
    have hquoted : quoted? package (q :: (inner ++ d :: (c ++ ')' :: behind))) = some (c ++ ')' :: behind) :=
      (quoted?_eq_some_iff hpackage).mpr ⟨q, inner, d, rfl, hq, hd, hinner, hholds⟩
    have h : t ++ back = front ++ '(' :: (b ++ q :: (inner ++ d :: (c ++ ')' :: behind))) := by
      simpa using h
    -- from left to right: the parenthesis, the two quotes and the parenthesis stand before the text
    rcases split_at h with ⟨m, rfl, hback⟩ | ⟨t₁, rfl, h₁⟩
    · rw [hstops.calls m b _ hback (fun c hc => hfront c (by simp [hc])) hb] at hquoted
      cases hquoted
    rcases split_at h₁ with ⟨m, rfl, hback⟩ | ⟨t₂, rfl, h₂⟩
    · rw [hstops.sources m _ hback fun c hc => isImportChar_of_isBlank (hb c (by simp [hc]))] at hquoted
      cases hquoted
    rcases split_at h₂ with ⟨m, rfl, hback⟩ | ⟨t₃, rfl, h₃⟩
    · obtain rfl := hstops.strings m d _ hback (fun c hc => hinner c (by simp [hc])) hd
      refine absurd (fun x hx => ?_) (hstops.arguments (d :: c) behind hback)
      rcases List.mem_cons.mp hx with rfl | hx
      · exact .inr hd
      · exact .inl (hc x hx)
    rcases split_at h₃ with ⟨m, rfl, hback⟩ | ⟨t', rfl, hbehind⟩
    · exact absurd (fun x hx => .inl (hc x (by simp [hx]))) (hstops.arguments m behind hback)
    · exact ⟨t', by simp, hbehind.symm⟩

theorem Stops.afterStatement (hstops : Stops package back) (t : List Char) :
    afterStatement (t ++ back) = afterStatement t ++ back := by
  cases back with
  | nil => simp
  | cons c v => exact afterStatement_append (hstops.ends c v rfl) v

/-- A find before the text is as long as without the text. -/
theorem Stops.length_sub (hstops : Stops package back) (t' : List Char) :
    (t ++ back).length - (PackageRefs.afterStatement (t' ++ back)).length =
      t.length - (PackageRefs.afterStatement t').length := by
  rw [hstops.afterStatement, List.length_append, List.length_append]
  omega

/-- **A search for imports** finds before the text what it finds without the text, but for an import that
ends with the first quote of the text. -/
theorem Stops.importStatement_iff (hstops : Stops package back)
    (hpackage : ∀ c ∈ package, isUnquoted c = true) :
    importStatement package before (t ++ back) = some (lead, n) ↔ importStatement package before t = some (lead, n) ∨
      startsWord before = true ∧ lead = 0 ∧ ∃ d behind, isQuote d = true ∧ back = d :: behind ∧
        IsImport package (t ++ [d]) ∧ n = (t ++ back).length - (PackageRefs.afterStatement behind).length := by
  rw [PackageRefs.importStatement_eq_some_iff hpackage, PackageRefs.importStatement_eq_some_iff hpackage]
  constructor
  · rintro ⟨hstarts, hlead, statement, behind, htext, himport, hn⟩
    rcases hstops.of_isImport hpackage himport htext with ⟨t', rfl, rfl⟩ | ⟨d, hd, rfl, hback⟩
    · exact .inl ⟨hstarts, hlead, statement, t', rfl, himport, hn.trans (hstops.length_sub t')⟩
    · exact .inr ⟨hstarts, hlead, d, behind, hd, hback, himport, hn⟩
  · rintro (⟨hstarts, hlead, statement, t', rfl, himport, hn⟩ | ⟨hstarts, hlead, d, behind, hd, rfl, himport, hn⟩)
    · exact ⟨hstarts, hlead, statement, t' ++ back, by simp, himport, hn.trans (hstops.length_sub t').symm⟩
    · exact ⟨hstarts, hlead, t ++ [d], behind, by simp, himport, hn⟩

/-- **A search for variables** finds before the text what it finds without the text. -/
theorem Stops.requireDeclaration_eq (hstops : Stops package back) (hpackage : ∀ c ∈ package, isUnquoted c = true) :
    requireDeclaration package before (t ++ back) = requireDeclaration package before t := by
  refine Option.ext fun (lead, n) => ?_
  rw [requireDeclaration_eq_some_iff hpackage, requireDeclaration_eq_some_iff hpackage]
  constructor
  · rintro ⟨hstarts, hlead, statement, behind, htext, hdeclaration, hn⟩
    obtain ⟨t', rfl, rfl⟩ := hstops.of_isSetting hpackage hdeclaration.isSetting htext
    exact ⟨hstarts, hlead, statement, t', rfl, hdeclaration, hn.trans (hstops.length_sub t')⟩
  · rintro ⟨hstarts, hlead, statement, t', rfl, hdeclaration, hn⟩
    exact ⟨hstarts, hlead, statement, t' ++ back, by simp, hdeclaration, hn.trans (hstops.length_sub t').symm⟩

/-- At the start of a line no call of the package starts. -/
theorem Stops.requireStatement (hpackage : ∀ c ∈ package, isUnquoted c = true) {r : List Char}
    (hstops : Stops package ('\n' :: r)) (before : Option Char) : PackageRefs.requireStatement package before r = none := by
  refine Option.eq_none_iff_forall_ne_some.mpr fun (lead, n) hfound => ?_
  obtain ⟨-, call, rest, rfl, hsetting⟩ := requireStatement_eq_some hpackage hfound
  cases hsetting with
  | @intro front b c inner q d hfront hb hq hd hinner hholds =>
    have hquoted : quoted? package (q :: (inner ++ d :: (c ++ ')' :: rest))) = some (c ++ ')' :: rest) :=
      (quoted?_eq_some_iff hpackage).mpr ⟨q, inner, d, rfl, hq, hd, hinner, hholds⟩
    have hnone := hstops.calls ('\n' :: front) b (q :: (inner ++ d :: (c ++ ')' :: rest))) (by simp)
      (List.forall_mem_cons.mpr ⟨by decide, hfront⟩) hb
    rw [hnone] at hquoted
    cases hquoted

end

/-! ## 5. Comments in a part of a text -/

section

variable {find : Finder Nat} {before : Option Char} {T T' back : List Char}

/-- The second text is the first with comments around parts of it. -/
def Reworked (T T' : List Char) : Prop :=
  ∃ pieces : List (Segment Nat), pieces.flatMap Segment.text = T ∧ pieces.flatMap Segment.commentedOut = T'

theorem Reworked.refl (T : List Char) : Reworked T T :=
  ⟨T.map .kept, by simp [List.flatMap_map, Segment.text], by simp [List.flatMap_map, Segment.commentedOut]⟩

theorem breakTerminators_append_of_free {a : List Char} (h : '*' ∉ a) (r : List Char) :
    breakTerminators (a ++ r) = a ++ breakTerminators r := by
  induction a with
  | nil => rfl
  | cons c a ih =>
    rw [List.mem_cons, not_or] at h
    have hbehind := ih h.2
    rw [List.cons_append, List.cons_append, ← hbehind]
    cases hr : a ++ r with
    | nil => simp [breakTerminators]
    | cons d s => exact breakTerminators_cons_of_not (fun hc => h.1 hc.1.symm) s

theorem breakTerminators_of_free {a : List Char} (h : '*' ∉ a) : breakTerminators a = a := by
  have hbehind := breakTerminators_append_of_free h []
  rwa [List.append_nil, show breakTerminators [] = [] from rfl, List.append_nil] at hbehind

theorem breakTerminators_append {c : Char} (hc : c ≠ '/') (a r : List Char) :
    breakTerminators (a ++ c :: r) = breakTerminators a ++ breakTerminators (c :: r) := by
  fun_induction breakTerminators a with
  | case1 a ih => simp [breakTerminators, ih]
  | case2 d a hnot ih =>
    rw [List.cons_append, List.cons_append, ← ih]
    cases a with
    | nil => exact breakTerminators_cons_of_not (fun h => hc h.2) r
    | cons e a => exact breakTerminators_cons_of_not (fun h => hnot a h.1 (by rw [h.2])) (a ++ c :: r)
  | case3 => rfl

theorem mem_of_mem_breakTerminators {s : List Char} {c : Char} (h : c ∈ breakTerminators s) : c ∈ s ∨ c = ' ' := by
  fun_induction breakTerminators s with
  | case1 r ih => grind
  | case2 d r hnot ih => grind
  | case3 => exact .inl h

/-- The characters of a text with comments in it. -/
theorem Reworked.mem (h : Reworked T T') {c : Char} (hc : c ∈ T') :
    c ∈ T ∨ c ∈ removedOpener ∨ c ∈ removedCloser := by
  obtain ⟨pieces, rfl, rfl⟩ := h
  rw [List.mem_flatMap] at hc
  obtain ⟨p, hp, hc⟩ := hc
  match p with
  | .kept d => exact .inl (List.mem_flatMap.mpr ⟨_, hp, hc⟩)
  | .found lead s =>
    have htext : ∀ {d : Char}, d ∈ s → d ∈ pieces.flatMap Segment.text :=
      fun hd => List.mem_flatMap.mpr ⟨_, hp, hd⟩
    simp only [Segment.commentedOut, List.mem_append] at hc
    rcases hc with ((hc | hc) | hc) | hc
    · exact .inl (htext (List.mem_of_mem_take hc))
    · exact .inr (.inl hc)
    · rcases mem_of_mem_breakTerminators hc with hc | rfl
      · exact .inl (htext (List.mem_of_mem_drop hc))
      · exact .inr (.inr (by decide))
    · exact .inr (.inr hc)

/-- Up to the first comment nothing has changed. -/
theorem Reworked.eq_or (h : Reworked T T') :
    T' = T ∨ ∃ a b more, T = a ++ b ∧ T' = a ++ (removedOpener ++ more) := by
  obtain ⟨pieces, rfl, rfl⟩ := h
  induction pieces with
  | nil => exact .inl rfl
  | cons p pieces ih =>
    rw [List.flatMap_cons, List.flatMap_cons]
    match p with
    | .kept c =>
      rcases ih with ih | ⟨a, b, more, htext, hcommented⟩
      · exact .inl (by rw [ih]; rfl)
      · exact .inr ⟨c :: a, b, more, by rw [htext]; rfl, by rw [hcommented]; rfl⟩
    | .found lead s =>
      refine .inr ⟨s.take lead, s.drop lead ++ pieces.flatMap Segment.text, breakTerminators (s.drop lead) ++
        removedCloser ++ pieces.flatMap Segment.commentedOut, ?_, ?_⟩
      · rw [← List.append_assoc, List.take_append_drop]
        rfl
      · simp [Segment.commentedOut]

theorem segmentsFrom_nil_of_advances (hfind : find.Advances) (before : Option Char) :
    segmentsFrom find before 0 [] = [] := by
  refine segmentsFrom_nil_of_none (Option.eq_none_iff_forall_ne_some.mpr fun (a, n) hfound => ?_) before
  obtain ⟨hpos, hle⟩ := hfind none [] a n hfound
  exact absurd (Nat.lt_of_lt_of_le hpos hle) (Nat.lt_irrefl 0)

/-- A search finds nothing, or goes on behind its first find. -/
theorem exists_first_find (hfind : find.Advances) (before : Option Char) (text : List Char) :
    segmentsFrom find before 0 text = text.map .kept ∨ ∃ pre a s rest, text = pre ++ (s ++ rest) ∧ s ≠ [] ∧
      find (pre.getLast?.or before) (s ++ rest) = some (a, s.length) ∧
      segmentsFrom find before 0 text = pre.map .kept ++ .found a s :: segmentsFrom find s.getLast? 0 rest := by
  induction text generalizing before with
  | nil => exact .inl (segmentsFrom_nil_of_advances hfind before)
  | cons c r ih =>
    cases hfound : find before (c :: r) with
    | none =>
      rw [segmentsFrom_kept hfound]
      rcases ih (some c) with h | ⟨pre, a, s, rest, rfl, hs, hfirst, h⟩
      · exact .inl (by rw [h, List.map_cons])
      · refine .inr ⟨c :: pre, a, s, rest, rfl, hs, ?_, by rw [h]; rfl⟩
        rwa [List.getLast?_cons, Option.some_or, ← Option.or_some]
    | some found =>
      obtain ⟨a, n⟩ := found
      obtain ⟨hpos, hle⟩ := hfind before _ a n hfound
      obtain ⟨s, rest, hsplit, rfl⟩ : ∃ s rest, c :: r = s ++ rest ∧ s.length = n :=
        ⟨(c :: r).take n, (c :: r).drop n, (List.take_append_drop n _).symm, List.length_take_of_le hle⟩
      have hs : s ≠ [] := List.length_pos_iff.mp hpos
      rw [hsplit] at hfound ⊢
      exact .inr ⟨[], a, s, rest, rfl, hs, hfound, segmentsFrom_found hs hfound⟩

/-- **A search of a text whose finds end with its first part**, or with the whole text. -/
theorem segmentsFrom_append (hfind : find.Advances)
    (h : ∀ before t a n, t <:+ T → t ≠ [] → find before (t ++ back) = some (a, n) →
      n ≤ t.length ∨ n = (t ++ back).length) (before : Option Char) :
    (∃ pieces before', pieces.flatMap Segment.text = T ∧
        segmentsFrom find before 0 (T ++ back) = pieces ++ segmentsFrom find before' 0 back) ∨
      ∃ pieces a s, s ≠ [] ∧ pieces.flatMap Segment.text ++ s = T ∧
        (∃ before', find before' (s ++ back) = some (a, (s ++ back).length)) ∧
        segmentsFrom find before 0 (T ++ back) = pieces ++ [.found a (s ++ back)] := by
  induction hlength : T.length using Nat.strongRecOn generalizing before T with
  | ind length ih =>
    subst hlength
    cases T with
    | nil => exact .inl ⟨[], before, rfl, rfl⟩
    | cons c T =>
      cases hfound : find before (c :: (T ++ back)) with
      | none =>
        rw [List.cons_append, segmentsFrom_kept hfound]
        have hlater := ih T.length (Nat.lt_succ_self _)
          (fun before t a n ht => h before t a n (ht.trans (List.suffix_cons c T))) (some c) rfl
        rcases hlater with ⟨pieces, before', rfl, hpieces⟩ | ⟨pieces, a, s, hs, rfl, hlast, hpieces⟩
        · exact .inl ⟨.kept c :: pieces, before', rfl, by rw [hpieces]; rfl⟩
        · exact .inr ⟨.kept c :: pieces, a, s, hs, rfl, hlast, by rw [hpieces]; rfl⟩
      | some found =>
        obtain ⟨a, n⟩ := found
        obtain ⟨hpos, -⟩ := hfind before _ a n hfound
        rcases h before (c :: T) a n (List.suffix_refl _) (by simp) hfound with hle | rfl
        · -- the find is the first `n` characters of the part
          obtain ⟨s, T₂, hsplit, rfl⟩ : ∃ s T₂, c :: T = s ++ T₂ ∧ s.length = n :=
            ⟨(c :: T).take n, (c :: T).drop n, (List.take_append_drop n _).symm, List.length_take_of_le hle⟩
          have hs : s ≠ [] := List.length_pos_iff.mp hpos
          have hwhole : c :: (T ++ back) = s ++ (T₂ ++ back) := by
            rw [← List.append_assoc, ← hsplit, List.cons_append]
          rw [hwhole] at hfound
          rw [List.cons_append, hwhole, segmentsFrom_found hs hfound]
          have hlater := ih T₂.length (by rw [hsplit, List.length_append]; omega)
            (fun before t a n ht => h before t a n (ht.trans (hsplit ▸ List.suffix_append s T₂))) s.getLast? rfl
          rcases hlater with ⟨pieces, before', rfl, hpieces⟩ | ⟨pieces, b, s', hs', rfl, hlast, hpieces⟩
          · exact .inl ⟨.found a s :: pieces, before', by rw [hsplit]; rfl, by rw [hpieces]; rfl⟩
          · refine .inr ⟨.found a s :: pieces, b, s', hs', ?_, hlast, by rw [hpieces]; rfl⟩
            rw [hsplit, List.flatMap_cons, List.append_assoc]
            rfl
        · have hpieces : segmentsFrom find before 0 (c :: T ++ back) = [.found a (c :: T ++ back)] := by
            have hfound' : find before (c :: T ++ back ++ []) = some (a, (c :: T ++ back).length) := by
              rwa [List.append_nil]
            have := segmentsFrom_found (by simp) hfound'
            rw [List.append_nil] at this
            rw [this, List.cons_append, List.getLast?_cons, segmentsFrom_nil]
          exact .inr ⟨[], a, c :: T, by simp, rfl, ⟨before, hfound⟩, by rw [hpieces]; rfl⟩

end


/-! ## 6. Searches of a part -/

section

variable {find : Finder Nat} {before : Option Char} {s rest T back : List Char}

/-- The text with comments around what a search finds, given the character before it. -/
def commentedFrom (find : Finder Nat) (before : Option Char) (text : List Char) : List Char :=
  (segmentsFrom find before 0 text).flatMap Segment.commentedOut

theorem commentedFrom_nil (hfind : find.Advances) (before : Option Char) : commentedFrom find before [] = [] := by
  rw [commentedFrom, segmentsFrom_nil_of_advances hfind]
  rfl

theorem commentedFrom_of_none (h : ∀ pre t, s = pre ++ t → t ≠ [] → find (pre.getLast?.or before) (t ++ rest) = none) :
    commentedFrom find before (s ++ rest) = s ++ commentedFrom find (s.getLast?.or before) rest := by
  rw [commentedFrom, segmentsFrom_append_of_none h, List.flatMap_append, List.flatMap_map]
  simp [commentedFrom, Segment.commentedOut]

theorem commentedFrom_of_nothing (h : ∀ before t, t <:+ s → t ≠ [] → find before (t ++ rest) = none)
    (before : Option Char) :
    commentedFrom find before (s ++ rest) = s ++ commentedFrom find (s.getLast?.or before) rest :=
  commentedFrom_of_none fun pre t hs hne => h _ t (hs ▸ List.suffix_append pre t) hne

/-- A search that finds in its first part what it finds without the rest. -/
theorem commentedFrom_append_of_local (hfind : find.Advances)
    (h : ∀ before t, t <:+ s → t ≠ [] → find before (t ++ rest) = find before t) (before : Option Char) :
    commentedFrom find before (s ++ rest) =
      commentedFrom find before s ++ commentedFrom find (s.getLast?.or before) rest := by
  rw [commentedFrom, segmentsFrom_append_of_local hfind h, List.flatMap_append]
  rfl

/-- A search whose finds do not go beyond its first part. -/
theorem commentedFrom_append (hfind : find.Advances)
    (h : ∀ before t a n, t <:+ T → t ≠ [] → find before (t ++ back) = some (a, n) → n ≤ t.length)
    (before : Option Char) :
    ∃ T' before', Reworked T T' ∧ commentedFrom find before (T ++ back) = T' ++ commentedFrom find before' back := by
  by_cases hback : back = []
  · subst hback
    refine ⟨commentedFrom find before T, none, ⟨_, (searched_segmentsFrom hfind before T).flatMap_text, rfl⟩, ?_⟩
    rw [commentedFrom_nil hfind, List.append_nil, List.append_nil]
  rcases segmentsFrom_append hfind (fun before t a n ht hne hfound => .inl (h before t a n ht hne hfound)) before with
    ⟨pieces, before', hpieces, hsearch⟩ | ⟨pieces, a, s, hs, hpieces, ⟨before', hfound⟩, -⟩
  · exact ⟨_, before', ⟨pieces, hpieces, rfl⟩, by simp [commentedFrom, hsearch]⟩
  · have hle := h before' s a _ (hpieces ▸ List.suffix_append _ s) hs hfound
    rw [List.length_append] at hle
    exact absurd (List.length_pos_iff.mpr hback) (by omega)

end

end PackageRefs
