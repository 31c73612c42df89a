/-
# Reading a plain script

* `parse_script`: a plain script can be read exactly if no arrow function in it lacks its expression, and what
  is read is its tree (`Displays`).
* `parse_spoiled`: a text that starts with plain lines and goes on with something that spoils them (`Spoils`)
  cannot be read.

**Line by line.**  `passes` is the step, and `repeat_meets` the induction on the lines: a comment is passed over
on the way to the next token, and a statement is read up to the token of the next line.  What is kept on the
way (`Drawn`) is the trees so far, and that the comments gathered later belong to tokens further on.

**How deep.**  The depth to which the rules may nest is bounded by the length of the text, and it is always
enough (`Line.depth_le`).
-/
import Mathlib.Data.List.Forall2
import PackageRefs.Proofs.Plain.Statement
import PackageRefs.Proofs.Plain.Trivia

namespace PackageRefs.Plain

open PackageRefs.Script PackageRefs.Text
open Script.Parser (listItem)

/-! ## 1. How deep a script is -/

theorem Expr.depth_le (e : Expr) : e.depth ≤ 4 * e.text.length + 8 := by
  induction e with
  | call callee argument ih =>
    simp only [depth, text, List.length_append, List.length_cons]
    omega
  | arrow body ih =>
    simp only [depth, text, List.length_append]
    have : arrowText.length = 6 := rfl
    omega
  | _ => simp only [depth]; omega

theorem Line.depth_le (l : Line) : l.depth ≤ 4 * l.text.length + 10 := by
  cases l with
  | bound name value =>
    have hvalue := value.depth_le
    simp only [depth, text, List.length_append]
    omega
  | run e =>
    have he := e.depth_le
    simp only [depth, text, List.length_append]
    omega
  | _ => simp only [depth]; omega

/-- The rules of the grammar may nest as deep as the lines need. -/
def Holds (fuel : Nat) (lines : List Line) : Prop := ∀ l ∈ lines, l.depth ≤ fuel

/-! ## 2. One line -/

/-- The statements among the lines. -/
def statements (lines : List Line) : List Line := lines.filter fun l => !l.isComment

section

variable {old : List Comment} {pos fuel : Nat} {text : List Char} {s : State} {l : Line}

/-- The tree of the statement has been read, and the next line comes. -/
structure Passed (l : Line) (text : List Char) (s : State) (t : Tree) (u : State) : Prop where
  whole : l.isHollow = false
  start : t.span.start = s.token.start
  next : ∃ stop, s.token.start < stop ∧ Shows (fun p => s.token.start < p ∧ p < stop) l t ∧
    Enters (Gathers s.log.comments) stop text u

theorem Line.exists_lexemes (hcode : l.isComment = false) :
    ∃ first second others, l.lexemes = first :: second :: others := by
  cases l with
  | imported request => exact ⟨_, _, _, rfl⟩
  | bound name value => exact ⟨_, _, _, rfl⟩
  | run e =>
    cases hlexemes : e.lexemes with
    | nil => exact absurd hlexemes e.lexemes_ne_nil
    | cons first others => cases others <;> simp [lexemes, hlexemes]
  | note _ | block _ | shelved _ _ _ => cases hcode

/-- The tokens of a statement are in hand. -/
theorem Enters.line (h : Enters (Gathers old) pos (l.text ++ text) s) (hplain : l.isPlain = true)
    (hcode : l.isComment = false) :
    Sees l.lexemes s ∧ (skip (l.lexemes.length - 1) s).rest = text ∧ text.length + 1 ≤ s.rest.length ∧
      s.rest.length < (l.text ++ text).length := by
  have hlexes := Line.lexes hplain hcode text
  obtain ⟨first, second, others, hlexemes⟩ := Line.exists_lexemes hcode
  rw [hlexemes] at hlexes ⊢
  obtain ⟨hsees, hrest, hle, hlt⟩ := h.sees (fun _ h => h.toQuiet) hlexes
  refine ⟨hsees, hrest, ?_, hlt⟩
  rw [List.length_cons] at hle
  omega

/-- The last token of a statement is on the same line. -/
theorem Sees.last {lexemes : List Lexeme} (h : Sees lexemes s) (hlength : 2 ≤ lexemes.length) :
    Ready (Plain.skip (lexemes.length - 1) s) ∧
      s.token.start < (Plain.skip (lexemes.length - 1) s).token.stop ∧
      (Plain.skip (lexemes.length - 1) s).log.comments = s.log.comments := by
  have hne : lexemes ≠ [] := by
    rintro rfl
    simp at hlength
  have hfront : lexemes.dropLast ≠ [] := by
    intro hnil
    have := congrArg List.length hnil
    rw [List.length_dropLast, List.length_nil] at this
    omega
  rw [← List.dropLast_concat_getLast hne] at h
  obtain ⟨hsees, hlt, -, hcomments⟩ := h.past hfront
  rw [List.length_dropLast] at hsees hlt hcomments
  exact ⟨hsees.ready, Nat.lt_trans hlt hsees.lt_stop, hcomments⟩

/-- **A line** is passed, unless an arrow function in it lacks its expression. -/
theorem passes (h : Enters (Gathers old) pos (l.text ++ '\n' :: text) s) (hplain : l.isPlain = true)
    (hcode : l.isComment = false) (hfuel : l.depth ≤ fuel) :
    (Parser.goal (fuel + 1) .statement s).Meets (Passed l text s) (l.isHollow = true) := by
  obtain ⟨hsees, hrest, -⟩ := h.line hplain hcode
  refine (reads_line hplain hcode hfuel hsees).imp ?_ id
  rintro t u ⟨hwhole, rfl, hstart, htree⟩
  obtain ⟨first, second, others, hlexemes⟩ := Line.exists_lexemes hcode
  have hlength : l.lexemes.length = l.lexemes.length - 1 + 1 := by
    rw [hlexemes]
    rfl
  obtain ⟨hready, hlt, hcomments⟩ := hsees.last (by rw [hlexemes, List.length_cons, List.length_cons]; omega)
  have hnext := enters_nextLine hready hrest
  rw [hcomments, ← skip_succ, ← hlength] at hnext
  exact ⟨hwhole, hstart, _, Nat.lt_succ_of_lt hlt, htree.mono fun p hp => ⟨hp.1, Nat.lt_succ_of_lt hp.2⟩,
    hnext⟩

/-! ## 3. Line by line -/

variable {lines : List Line} {tail : List Char} {u v : State} {t : Tree} {ts : List Tree}

theorem scriptText_cons (l : Line) (lines : List Line) (tail : List Char) :
    scriptText (l :: lines) ++ tail = l.text ++ '\n' :: (scriptText lines ++ tail) := by
  simp [scriptText]

/-- What has been read of the lines, from the state on that has their first token in hand. -/
structure Drawn (lines : List Line) (s : State) (ts : List Tree) (u : State) : Prop where
  whole : ∀ l ∈ lines, l.isHollow = false
  trees : ∃ later, u.log.comments = later ++ s.log.comments ∧
    (∀ c ∈ later, OwnLine c ∧ ∃ p, c.attachedTo = some p ∧ s.token.start < p) ∧
    List.Forall₂ (Shows fun p => s.token.start < p ∧ ∀ c ∈ later, c.attachedTo ≠ some p) (statements lines) ts

theorem drawn_nil (s : State) : Drawn [] s [] s := ⟨by simp, [], rfl, by simp, .nil⟩

theorem isHollow_of_isComment (h : l.isComment = true) : l.isHollow = false := by
  cases l <;> first | rfl | cases h

theorem Drawn.comment (h : Drawn lines s ts u) (hcomment : l.isComment = true) : Drawn (l :: lines) s ts u := by
  have hstatements : statements (l :: lines) = statements lines := by simp [statements, hcomment]
  obtain ⟨hwhole, htrees⟩ := h
  exact ⟨List.forall_mem_cons.mpr ⟨isHollow_of_isComment hcomment, hwhole⟩, hstatements ▸ htrees⟩

/-- The comments before the token in hand lead it. -/
theorem Enters.led (h : Enters (Gathers old) pos (scriptText lines) s) (hplain : ∀ l ∈ lines, l.isPlain = true) :
    pos ≤ s.token.start ∧ ∃ new, s.log.comments = new ++ old ∧
      ∀ c ∈ new, OwnLine c ∧ c.attachedTo = some s.token.start := by
  induction lines generalizing pos with
  | nil =>
    obtain ⟨-, -, -, hle, log, hlog, hcomments⟩ := h.finish fun _ h => h.toQuiet
    exact ⟨hle, hcomments ▸ hlog.led s.token.start⟩
  | cons l lines ih =>
    rw [List.forall_mem_cons] at hplain
    have htext := scriptText_cons l lines []
    rw [List.append_nil, List.append_nil] at htext
    rw [htext] at h
    cases hcode : l.isComment with
    | true =>
      obtain ⟨pos', hle, h⟩ := h.comment hcode hplain.1
      obtain ⟨hle', hnew⟩ := ih h hplain.2
      exact ⟨Nat.le_trans hle hle', hnew⟩
    | false =>
      have hlexes := Line.lexes hplain.1 hcode ('\n' :: scriptText lines)
      obtain ⟨first, second, others, hlexemes⟩ := Line.exists_lexemes hcode
      rw [hlexemes] at hlexes
      cases hlexes with
      | cons hnext _ =>
        obtain ⟨-, hle, -, -, -, log, hlog, hcomments⟩ := h.first (fun _ h => h.toQuiet) hnext
        exact ⟨hle, hcomments ▸ hlog.led s.token.start⟩

/-- A statement before those that have been read. -/
theorem Drawn.cons (h : Drawn lines u ts v) (hpassed : Passed l (scriptText lines) s t u)
    (hplain : ∀ l ∈ lines, l.isPlain = true) (hcode : l.isComment = false) : Drawn (l :: lines) s (t :: ts) v := by
  obtain ⟨hwhole, hstart, stop, hlt, hshows, henters⟩ := hpassed
  obtain ⟨hle, new, hcomments, hnew⟩ := henters.led hplain
  obtain ⟨hothers, later, hlater, hattached, htrees⟩ := h
  have hstatements : statements (l :: lines) = l :: statements lines := by simp [statements, hcode]
  refine ⟨List.forall_mem_cons.mpr ⟨hwhole, hothers⟩, later ++ new, ?_, ?_, hstatements ▸ .cons ?_ ?_⟩
  · rw [hlater, hcomments, List.append_assoc]
  · intro c hc
    rcases List.mem_append.mp hc with hc | hc
    · obtain ⟨hown, p, hp, hlt'⟩ := hattached c hc
      exact ⟨hown, p, hp, by omega⟩
    · exact ⟨(hnew c hc).1, _, (hnew c hc).2, by omega⟩
  · -- a comment from further on leads a token behind the line
    refine hshows.mono fun p hp => ⟨hp.1, fun c hc hattach => ?_⟩
    rcases List.mem_append.mp hc with hc | hc
    · obtain ⟨-, q, hq, hlt'⟩ := hattached c hc
      obtain rfl : p = q := Option.some.inj (hattach.symm.trans hq)
      omega
    · obtain rfl : p = u.token.start := Option.some.inj (hattach.symm.trans (hnew c hc).2)
      omega
  · refine htrees.imp fun l' t' h => h.mono fun p hp => ⟨by omega, fun c hc hattach => ?_⟩
    rcases List.mem_append.mp hc with hc | hc
    · exact hp.2 c hc hattach
    · obtain rfl : p = u.token.start := Option.some.inj (hattach.symm.trans (hnew c hc).2)
      exact Nat.lt_irrefl _ hp.1

/-! ## 4. All lines -/

/-- The next statement cannot be read. -/
def Stuck (fuel : Nat) (s : State) : Prop :=
  s.token.lexeme ≠ .endOfText ∧ (Parser.goal fuel .statement s).Meets (fun _ _ => False) True

/-- At the start of a line, the text can be read up to its first statement at most. -/
def Spoils (fuel : Nat) (text : List Char) : Prop :=
  ∀ old pos s, Enters (Gathers old) pos text s → s.token.lexeme ≠ .endOfText ∧
    (Parser.goal fuel .statement s).Meets
      (fun t u => (∀ raw, Parser.directive? raw t = none) ∧ Stuck fuel u) True

theorem atEnd_of_ne (h : s.token.lexeme ≠ .endOfText) : Parser.atEnd s = .ok false s := by simp [h]

theorem repeat_of_stuck {done : List Tree → State → Prop} (h : Stuck fuel s) (k : Nat) (seen : List Tree) :
    (Parser.repeatWith (listItem (Parser.goal fuel) Parser.atEnd) (k + 1) seen s).Meets done True := by
  rw [Parser.repeatWith]
  refine Parser.bind_meets (Parser.listItem_meets (atEnd_of_ne h.1) h.2) ?_
  rintro _ _ ⟨_, _, h⟩
  exact h.elim

theorem not_end_of_sees (hcode : l.isComment = false) (h : Sees l.lexemes s) :
    s.token.lexeme ≠ .endOfText := by
  cases l with
  | imported request => simp [h.1]
  | bound name value => simp [h.1]
  | run e => cases e <;> simp [h.1, Expr.literal]
  | note _ | block _ | shelved _ _ _ => cases hcode

/-- **Reading the lines** comes to their trees, unless an arrow function in one lacks its expression or what
comes behind them cannot be read. -/
theorem repeat_meets (hplain : ∀ l ∈ lines, l.isPlain = true) (hfuel : Holds fuel lines)
    (htail : tail = [] ∨ Spoils (fuel + 1) tail) {k : Nat} (hk : (statements lines).length + 2 ≤ k)
    (h : Enters (Gathers old) pos (scriptText lines ++ tail) s) (seen : List Tree) :
    (Parser.repeatWith (listItem (Parser.goal (fuel + 1)) Parser.atEnd) k seen s).Meets
      (fun ts u => u.Clean ∧ tail = [] ∧ ∃ new, ts = seen.reverse ++ new ∧ Drawn lines s new u)
      ((∃ l ∈ lines, l.isHollow = true) ∨ tail ≠ []) := by
  induction lines generalizing old pos k s seen with
  | nil =>
    have hk : 2 ≤ k := hk
    obtain ⟨k, rfl⟩ := Nat.exists_eq_add_of_le' hk
    rcases htail with rfl | hspoils
    · obtain ⟨hend, hclean, -⟩ := Enters.finish h fun _ h => h.toQuiet
      have hclosed : Parser.atEnd s = .ok true s := by simp [hend]
      rw [Parser.repeatWith, Parser.bind_ok (Parser.listItem_of_closed hclosed)]
      exact ⟨hclean, rfl, [], by simp, drawn_nil s⟩
    · obtain ⟨hopen, hstatement⟩ := hspoils old pos s h
      have hne : tail ≠ [] := by
        rintro rfl
        exact hopen (Enters.finish h fun _ h => h.toQuiet).1
      rw [Parser.repeatWith]
      refine @Parser.bind_meets _ _ _ _ _ (_ ∨ _) _ _ ((Parser.listItem_meets (atEnd_of_ne hopen) hstatement).imp
        (fun _ _ h => h) fun _ => .inr hne) ?_
      rintro _ u ⟨x, rfl, -, hstuck⟩
      exact (repeat_of_stuck hstuck k _).imp (fun _ _ h => h) fun _ => .inr hne
  | cons l lines ih =>
    rw [List.forall_mem_cons] at hplain
    rw [scriptText_cons] at h
    cases hcode : l.isComment with
    | true =>
      have hstatements : statements (l :: lines) = statements lines := by simp [statements, hcode]
      rw [hstatements] at hk
      obtain ⟨pos', -, h⟩ := h.comment hcode hplain.1
      refine (ih hplain.2 (fun l' hl' => hfuel l' (List.mem_cons_of_mem _ hl')) hk h seen).imp ?_ ?_
      · rintro ts u ⟨hclean, htail, new, hts, hdrawn⟩
        exact ⟨hclean, htail, new, hts, hdrawn.comment hcode⟩
      · rintro (⟨l', hl', hhollow⟩ | hne)
        · exact .inl ⟨l', List.mem_cons_of_mem _ hl', hhollow⟩
        · exact .inr hne
    | false =>
      have hstatements : (statements (l :: lines)).length = (statements lines).length + 1 := by
        simp [statements, hcode]
      rw [hstatements] at hk
      obtain ⟨k, rfl⟩ := Nat.exists_eq_add_of_le' (Nat.le_trans (Nat.le_add_left 1 _) hk)
      have hopen := atEnd_of_ne (not_end_of_sees hcode (h.line hplain.1 hcode).1)
      have hline : (Parser.goal (fuel + 1) .statement s).Meets (Passed l (scriptText lines ++ tail) s)
          ((∃ l' ∈ l :: lines, l'.isHollow = true) ∨ tail ≠ []) :=
        (passes h hplain.1 hcode (hfuel l (List.mem_cons_self ..))).imp (fun _ _ h => h)
          fun hhollow => .inl ⟨l, List.mem_cons_self .., hhollow⟩
      rw [Parser.repeatWith]
      refine @Parser.bind_meets _ _ _ _ _ ((∃ l' ∈ l :: lines, l'.isHollow = true) ∨ tail ≠ []) _ _
        (Parser.listItem_meets hopen hline) ?_
      rintro _ u ⟨t, rfl, hpassed⟩
      obtain ⟨stop, -, -, henters⟩ := hpassed.next
      refine (ih hplain.2 (fun l' hl' => hfuel l' (List.mem_cons_of_mem _ hl'))
        (Nat.le_of_succ_le_succ hk) henters (t :: seen)).imp ?_ ?_
      · rintro ts v ⟨hclean, rfl, new, hts, hdrawn⟩
        rw [List.append_nil] at hpassed
        exact ⟨hclean, rfl, t :: new, by simp [hts], hdrawn.cons hpassed hplain.2 hcode⟩
      · rintro (⟨l', hl', hhollow⟩ | hne)
        · exact .inl ⟨l', List.mem_cons_of_mem _ hl', hhollow⟩
        · exact .inr hne

theorem length_lines_le (lines : List Line) : lines.length ≤ (scriptText lines).length := by
  induction lines with
  | nil => exact Nat.zero_le _
  | cons l lines ih =>
    simp only [scriptText, List.flatMap_cons, List.length_append, List.length_cons] at ih ⊢
    omega

/-- As many statements are left as characters, at most. -/
theorem length_statements_le (hplain : ∀ l ∈ lines, l.isPlain = true)
    (h : Enters (Gathers old) pos (scriptText lines ++ tail) s) :
    (statements lines).length ≤ s.rest.length := by
  induction lines generalizing pos with
  | nil => exact Nat.zero_le _
  | cons l lines ih =>
    rw [List.forall_mem_cons] at hplain
    rw [scriptText_cons] at h
    cases hcode : l.isComment with
    | true =>
      obtain ⟨pos', -, h⟩ := h.comment hcode hplain.1
      simpa [statements, hcode] using ih hplain.2 h
    | false =>
      obtain ⟨-, -, hle, -⟩ := h.line hplain.1 hcode
      have hfilter := List.length_filter_le (fun l : Line => !l.isComment) lines
      have hlines := length_lines_le lines
      simp only [statements, hcode, List.filter_cons, Bool.not_false, if_true, List.length_cons]
      simp only [List.length_cons, List.length_append] at hle
      omega

theorem many_meets (hplain : ∀ l ∈ lines, l.isPlain = true) (hfuel : Holds fuel lines)
    (htail : tail = [] ∨ Spoils (fuel + 1) tail)
    (h : Enters (Gathers old) pos (scriptText lines ++ tail) s) :
    (Parser.many (listItem (Parser.goal (fuel + 1)) Parser.atEnd) s).Meets
      (fun ts u => u.Clean ∧ tail = [] ∧ Drawn lines s ts u)
      ((∃ l ∈ lines, l.isHollow = true) ∨ tail ≠ []) := by
  have hle := length_statements_le hplain h
  refine (repeat_meets hplain hfuel htail (Nat.add_le_add_right hle 2) h []).imp ?_ id
  rintro _ u ⟨hclean, htail, new, rfl, hdrawn⟩
  exact ⟨hclean, htail, hdrawn⟩

theorem Shows.not_directive {free : Nat → Prop} (h : Shows free l t) (hplain : l.isPlain = true) (raw : String) :
    Parser.directive? raw t = none := by
  cases h with
  | run span h =>
    cases h <;> first | rfl | cases hplain
  | _ => rfl

/-- **Reading a script** comes to the trees of its lines. -/
theorem program_reads (hplain : ∀ l ∈ lines, l.isPlain = true) (hfuel : Holds fuel lines)
    (htail : tail = [] ∨ Spoils (fuel + 1) tail)
    (h : Enters (Gathers old) pos (scriptText lines ++ tail) s) :
    (Parser.program (Parser.goal (fuel + 1)) none s).Meets
      (fun program u => ∃ directives ts, Parser.IsProgram directives ts program ∧
        directives = [] ∧ u.Clean ∧ tail = [] ∧ Drawn lines s ts u)
      ((∃ l ∈ lines, l.isHollow = true) ∨ tail ≠ []) := by
  induction lines generalizing pos with
  | nil =>
    rcases htail with rfl | hspoils
    · obtain ⟨hend, hclean, -⟩ := Enters.finish h fun _ h => h.toQuiet
      have hclosed : Parser.atEnd s = .ok true s := by simp [hend]
      refine @Parser.program_meets _ _ (fun parts t => parts = ([], []) ∧ t = s) _ _ ?_ ?_
      · rw [Parser.directiveList_of_closed hclosed]
        exact ⟨rfl, rfl⟩
      · rintro _ _ ⟨rfl, rfl⟩
        exact (many_meets hplain hfuel (.inl rfl) h).imp (fun ts u h => ⟨rfl, h⟩) id
    · obtain ⟨hopen, hstatement⟩ := hspoils old pos s h
      have hne : tail ≠ [] := by
        rintro rfl
        exact hopen (Enters.finish h fun _ h => h.toQuiet).1
      have hstuck := @Parser.directiveList_meets _ _ _ _ _ (s.rest.length + 1) (atEnd_of_ne hopen) hstatement
        fun x t h => h.1
      refine Parser.program_meets (hstuck.imp (fun _ _ h => h) fun _ => .inr hne) ?_
      rintro _ u ⟨x, rfl, -, hstuck⟩
      exact (repeat_of_stuck hstuck _ []).imp (fun _ _ h => h) fun _ => .inr hne
  | cons l lines ih =>
    rw [List.forall_mem_cons] at hplain
    have hfuel' : Holds fuel lines := fun l' hl' => hfuel l' (List.mem_cons_of_mem _ hl')
    have hlost : ((∃ l' ∈ lines, l'.isHollow = true) ∨ tail ≠ []) →
        (∃ l' ∈ l :: lines, l'.isHollow = true) ∨ tail ≠ [] :=
      Or.imp_left fun ⟨l', hl', hhollow⟩ => ⟨l', List.mem_cons_of_mem _ hl', hhollow⟩
    rw [scriptText_cons] at h
    cases hcode : l.isComment with
    | true =>
      obtain ⟨pos', -, h⟩ := h.comment hcode hplain.1
      refine (ih hplain.2 hfuel' h).imp ?_ hlost
      rintro program u ⟨directives, ts, hprogram, hdirectives, hclean, htail, hdrawn⟩
      exact ⟨directives, ts, hprogram, hdirectives, hclean, htail, hdrawn.comment hcode⟩
    | false =>
      have hopen := atEnd_of_ne (not_end_of_sees hcode (h.line hplain.1 hcode).1)
      have hline : (Parser.goal (fuel + 1) .statement s).Meets (Passed l (scriptText lines ++ tail) s)
          ((∃ l' ∈ l :: lines, l'.isHollow = true) ∨ tail ≠ []) :=
        (passes h hplain.1 hcode (hfuel l (List.mem_cons_self ..))).imp (fun _ _ h => h)
          fun hhollow => .inl ⟨l, List.mem_cons_self .., hhollow⟩
      refine Parser.program_meets (Parser.directiveList_meets hopen hline fun t u ht raw => ?_) ?_
      · obtain ⟨stop, -, hshows, -⟩ := ht.next
        exact hshows.not_directive hplain.1 raw
      · rintro _ u ⟨t, rfl, hpassed⟩
        obtain ⟨stop, -, -, henters⟩ := hpassed.next
        refine (many_meets hplain.2 hfuel' htail henters).imp ?_ hlost
        rintro ts v ⟨hclean, rfl, hdrawn⟩
        rw [List.append_nil] at hpassed
        exact ⟨rfl, hclean, rfl, hdrawn.cons hpassed hplain.2 hcode⟩

/-! ## 5. The whole script -/

/-- A line starts with neither a mark of the encoding nor the line that names an interpreter, and with nothing
that could belong to a line before it. -/
def isFirst (c : Char) : Bool := c != '\ufeff' && c != '#' && !isBlank c && c != '"' && c != '\'' && c != ')'

theorem isFirst_of_isNameHead {c : Char} (h : isNameHead c = true) : isFirst c = true := by
  have hall := forall_ascii (p := fun c => !isNameHead c || isFirst c) (by decide +kernel)
    (lt_of_isNameHead h)
  simpa [h] using hall

theorem exists_of_isName {w : String} (h : isName w = true) :
    ∃ c tail, w.toList = c :: tail ∧ isNameHead c = true ∧ tail.all isNameTail = true := by
  have hword := isWord_of_isName h
  unfold isWord at hword
  split at hword
  · rename_i c tail hlist
    rw [Bool.and_eq_true] at hword
    exact ⟨c, tail, hlist, hword⟩
  · cases hword

theorem Expr.exists_text {e : Expr} (h : e.isCode = true) : ∃ c rest, e.text = c :: rest ∧ isFirst c = true := by
  cases e with
  | name n =>
    obtain ⟨c, tail, hn, hc, -⟩ := exists_of_isName h
    exact ⟨c, tail, hn, isFirst_of_isNameHead hc⟩
  | call callee argument =>
    rw [isCode, Bool.and_eq_true] at h
    obtain ⟨c, tail, hn, hc, -⟩ := exists_of_isName h.1
    exact ⟨c, tail ++ '(' :: (argument.text ++ [')']), by simp [text, hn], isFirst_of_isNameHead hc⟩
  | required request => exact ⟨_, _, rfl, by decide⟩
  | arrow body => exact ⟨_, _, rfl, by decide⟩
  | hollow => exact ⟨_, _, rfl, by decide⟩
  | nothing => exact ⟨_, _, rfl, by decide⟩
  | quoted t | template t => cases h

theorem Line.exists_text (h : l.isPlain = true) : ∃ c rest, l.text = c :: rest ∧ isFirst c = true := by
  cases l with
  | run e =>
    obtain ⟨c, rest, htext, hc⟩ := Expr.exists_text h
    exact ⟨c, rest ++ [';'], by simp [text, htext], hc⟩
  | imported request => exact ⟨_, _, rfl, by decide⟩
  | bound name value => exact ⟨_, _, rfl, by decide⟩
  | note t => exact ⟨_, _, rfl, by decide⟩
  | block t => exact ⟨_, _, rfl, by decide⟩
  | shelved front request back => exact ⟨_, _, rfl, by decide⟩

theorem startsPlainly_script (hplain : ∀ l ∈ lines, l.isPlain = true) (htail : StartsPlainly tail) :
    StartsPlainly (scriptText lines ++ tail) := by
  cases lines with
  | nil => exact htail
  | cons l lines =>
    obtain ⟨c, rest, htext, hc⟩ := Line.exists_text (hplain l (List.mem_cons_self ..))
    simp only [isFirst, Bool.and_eq_true, bne_iff_ne] at hc
    rw [scriptText_cons, htext]
    simpa [StartsPlainly] using hc.1.1.1.1

/-- The tree exports nothing. -/
structure Silent (t : Tree) : Prop where
  names : t.gather Tree.outwardNames = []
  defaults : ∀ n ∈ t.gather fun t => [t.defaultExports], n = 0

theorem silent_node {l : Label} {span : Span} {parts : List Tree}
    (hnames : (Script.Tree.node l span parts).outwardNames = [])
    (hdefaults : (Script.Tree.node l span parts).defaultExports = 0) (hparts : ∀ p ∈ parts, Silent p) :
    Silent (.node l span parts) := by
  have hall : Tree.gatherAll Tree.outwardNames parts = [] ∧
      ∀ n ∈ Tree.gatherAll (fun t => [t.defaultExports]) parts, n = 0 := by
    clear hnames hdefaults
    induction parts with
    | nil => exact ⟨rfl, by simp [Tree.gatherAll]⟩
    | cons p parts ih =>
      rw [List.forall_mem_cons] at hparts
      obtain ⟨hnames, hdefaults⟩ := ih hparts.2
      refine ⟨by rw [Tree.gatherAll, hparts.1.names, hnames]; rfl, fun n hn => ?_⟩
      rw [Tree.gatherAll, List.mem_append] at hn
      exact hn.elim (hparts.1.defaults n) (hdefaults n)
  refine ⟨by rw [Tree.gather, hnames, hall.1]; rfl, fun n hn => ?_⟩
  rw [Tree.gather, hdefaults, List.singleton_append, List.mem_cons] at hn
  exact hn.elim id (hall.2 n)

theorem silent_absent : Silent .absent := silent_node rfl rfl (by simp)

theorem Depicts.silent {free : Nat → Prop} {e : Expr} (h : Depicts free e t) : Silent t := by
  have hname : ∀ w span, Silent (Parser.nameNode w span) := fun _ _ => silent_node rfl rfl (by simp)
  have hstring : ∀ t span, Silent (stringNode t span) := fun _ _ => silent_node rfl rfl (by simp)
  induction h with
  | name n span => exact hname n span
  | required request => exact silent_node rfl rfl (by simp [hname, hstring, silent_absent])
  | call callee calleeSpan hend hstart _ ih => exact silent_node rfl rfl (by simp [hname, silent_absent, ih])
  | @arrow span listSpan bodySpan e t _ ih =>
    have hlist : Silent (.node .parameters listSpan []) := silent_node rfl rfl (by simp)
    have hdirectives : Silent (.node .directives bodySpan []) := silent_node rfl rfl (by simp)
    have hstatement : Silent (.node .expressionStatement bodySpan [t]) :=
      silent_node rfl rfl (List.forall_mem_singleton.mpr ih)
    have hstatements : Silent (.node .statements bodySpan [.node .expressionStatement bodySpan [t]]) :=
      silent_node rfl rfl (List.forall_mem_singleton.mpr hstatement)
    exact silent_node rfl rfl (by
      simpa [silent_absent, hlist] using
        silent_node (l := .functionBody) rfl rfl (by simpa using And.intro hdirectives hstatements))
  | hollow span listSpan bodySpan =>
    have hlist : Silent (.node .parameters listSpan []) := silent_node rfl rfl (by simp)
    have hdirectives : Silent (.node .directives bodySpan []) := silent_node rfl rfl (by simp)
    have hstatements : Silent (.node .statements bodySpan []) := silent_node rfl rfl (by simp)
    exact silent_node rfl rfl (by
      simpa [silent_absent, hlist] using
        silent_node (l := .functionBody) rfl rfl (by simpa using And.intro hdirectives hstatements))
  | nothing span zeroSpan =>
    have hzero : Silent (.node (.number .zero) zeroSpan []) := silent_node rfl rfl (by simp)
    exact silent_node rfl rfl (by simp [hzero])
  | quoted t span => exact hstring t span
  | template t span quasiSpan =>
    have hquasi : Silent (.node (.quasi t (some t)) quasiSpan []) := silent_node rfl rfl (by simp)
    exact silent_node rfl rfl (by simp [hquasi])

theorem Shows.silent {free : Nat → Prop} (h : Shows free l t) : Silent t := by
  have hstring : ∀ t span, Silent (stringNode t span) := fun _ _ => silent_node rfl rfl (by simp)
  cases h with
  | imported request span sourceSpan => exact silent_node rfl rfl (by simp [hstring, silent_absent])
  | bound name span variableSpan nameSpan h =>
    have hname : Silent (.node (.binding name) nameSpan []) := silent_node rfl rfl (by simp)
    have hparts := List.forall_mem_cons.mpr ⟨hname, List.forall_mem_singleton.mpr h.silent⟩
    exact silent_node rfl rfl (List.forall_mem_singleton.mpr (silent_node rfl rfl hparts))
  | run span h => exact silent_node rfl rfl (List.forall_mem_singleton.mpr h.silent)

theorem exportComplaints_of_silent (h : Silent t) : exportComplaints t = [] := by
  have hsum : ∀ ns : List Nat, (∀ n ∈ ns, n = 0) → ns.foldl (· + ·) 0 = 0 := by
    intro ns hns
    induction ns with
    | nil => rfl
    | cons n ns ih =>
      rw [List.forall_mem_cons] at hns
      rw [List.foldl_cons, hns.1]
      exact ih hns.2
  rw [exportComplaints, h.names, hsum _ h.defaults]
  rfl

/-- The tree of a script, with its comments. -/
structure Displays (lines : List Line) (comments : List Comment) (program : Tree) : Prop where
  ownLine : ∀ c ∈ comments, OwnLine c
  trees : ∃ ts, Parser.IsProgram [] ts program ∧
    List.Forall₂ (Shows fun p => ∀ c ∈ comments, c.attachedTo ≠ some p) (statements lines) ts

theorem Displays.silent {comments : List Comment} (h : Displays lines comments t) : Silent t := by
  obtain ⟨-, ts, ⟨span, directivesSpan, statementsSpan, rfl⟩, hshows⟩ := h
  have htrees : ∀ t ∈ ts, Silent t := by
    generalize statements lines = shown at hshows
    induction hshows with
    | nil => simp
    | cons hshows _ ih => exact List.forall_mem_cons.mpr ⟨hshows.silent, ih⟩
  have hdirectives : Silent (.node .directives directivesSpan []) := silent_node rfl rfl (by simp)
  have hstatements : Silent (.node .statements statementsSpan ts) := silent_node rfl rfl htrees
  exact silent_node rfl rfl (List.forall_mem_cons.mpr ⟨hdirectives, List.forall_mem_singleton.mpr hstatements⟩)

theorem displays_of_drawn (hplain : ∀ l ∈ lines, l.isPlain = true)
    (h : Enters (Gathers []) pos (scriptText lines) s) (hprogram : Parser.IsProgram [] ts t)
    (hdrawn : Drawn lines s ts u) : Displays lines u.log.toList t := by
  obtain ⟨-, new, hnew, hled⟩ := h.led hplain
  obtain ⟨-, later, hlater, hattached, htrees⟩ := hdrawn
  rw [List.append_nil] at hnew
  have hcomments : ∀ c ∈ u.log.toList, c ∈ later ∨ c ∈ new := by
    intro c hc
    rwa [CommentLog.toList, List.mem_reverse, hlater, hnew, List.mem_append] at hc
  refine ⟨fun c hc => ?_, ts, hprogram, htrees.imp fun l t h => h.mono fun p hp c hc hattach => ?_⟩
  · exact (hcomments c hc).elim (fun hc => (hattached c hc).1) fun hc => (hled c hc).1
  · rcases hcomments c hc with hc | hc
    · exact hp.2 c hc hattach
    · obtain rfl : p = s.token.start := Option.some.inj (hattach.symm.trans (hled c hc).2)
      exact Nat.lt_irrefl _ hp.1

theorem holds_of_length (lines : List Line) {n : Nat} (h : (scriptText lines).length ≤ n) :
    Holds (16 * n + 63) lines := by
  intro l hl
  have hdepth := l.depth_le
  have hlength : l.text.length ≤ (scriptText lines).length := by
    obtain ⟨before, after, rfl⟩ := List.append_of_mem hl
    simp only [scriptText, List.flatMap_append, List.flatMap_cons, List.length_append]
    omega
  omega

variable {dialect : Dialect}

theorem parse_lines (hplain : ∀ l ∈ lines, l.isPlain = true) (htail : tail = [] ∨ ∀ fuel, Spoils (fuel + 16) tail)
    (hstart : StartsPlainly tail) {source : String} (hsource : source.toList = scriptText lines ++ tail) :
    (∃ program comments, ((∀ l ∈ lines, l.isHollow = false) ∧ tail = [] ∧ Displays lines comments program) ∧
        parse dialect source = { program, comments, panicked := false, diagnostics := [] }) ∨
      (parse dialect source).panicked = true ∧ ((∃ l ∈ lines, l.isHollow = true) ∨ tail ≠ []) := by
  have hplainly : StartsPlainly source.toList := hsource ▸ startsPlainly_script hplain hstart
  have henters := enters_start dialect source.toList
  have hfuel : Holds (16 * source.toList.length + 63) lines :=
    holds_of_length lines (by rw [hsource, List.length_append]; omega)
  have hprogram : (Parser.program (Parser.goal (nestingBound source.toList.length)) none
      (State.start dialect source.toList 0)).Meets
        (fun t u => u.Clean ∧ (∀ l ∈ lines, l.isHollow = false) ∧ tail = [] ∧ Displays lines u.log.toList t)
        ((∃ l ∈ lines, l.isHollow = true) ∨ tail ≠ []) := by
    have hbound : nestingBound source.toList.length = 16 * source.toList.length + 63 + 1 := rfl
    generalize State.start dialect source.toList 0 = s at henters ⊢
    rw [hsource] at henters
    rw [hbound]
    refine (program_reads hplain hfuel (htail.imp_right fun h => h (16 * source.toList.length + 48)) henters).imp ?_ id
    rintro t u ⟨_, ts, hprogram, rfl, hclean, rfl, hdrawn⟩
    rw [List.append_nil] at henters
    exact ⟨hclean, hdrawn.whole, rfl, displays_of_drawn hplain henters hprogram hdrawn⟩
  refine (parse_meets hplainly hprogram).imp_left ?_
  rintro ⟨t, s, hdone, hparse⟩
  refine ⟨t, s.log.toList, hdone, ?_⟩
  rw [hparse, exportComplaints_of_silent hdone.2.2.silent, ite_self]

/-- **A plain script can be read** exactly if no arrow function in it lacks its expression, and what is read
is its tree. -/
theorem parse_script (dialect : Dialect) (hplain : ∀ l ∈ lines, l.isPlain = true) :
    ((parse dialect (String.ofList (scriptText lines))).succeeded = true ↔ ∀ l ∈ lines, l.isHollow = false) ∧
      ((parse dialect (String.ofList (scriptText lines))).succeeded = true →
        Displays lines (parse dialect (String.ofList (scriptText lines))).comments
          (parse dialect (String.ofList (scriptText lines))).program) := by
  have hsource : (String.ofList (scriptText lines)).toList = scriptText lines ++ [] := by simp
  rcases parse_lines hplain (.inl rfl) (by simp [StartsPlainly]) hsource with
    ⟨program, comments, ⟨hwhole, -, hdisplays⟩, hparse⟩ | ⟨hpanicked, ⟨l, hl, hhollow⟩ | h⟩
  · rw [hparse]
    exact ⟨iff_of_true rfl hwhole, fun _ => hdisplays⟩
  · have hfailed : (parse dialect (String.ofList (scriptText lines))).succeeded = false := by
      simp [Parsed.succeeded, hpanicked]
    rw [hfailed]
    refine ⟨iff_of_false (by simp) fun h => ?_, fun h => by cases h⟩
    rw [h l hl] at hhollow
    cases hhollow
  · exact absurd rfl h

/-- What cannot be read spoils the lines before it. -/
theorem parse_spoiled (dialect : Dialect) (hplain : ∀ l ∈ lines, l.isPlain = true)
    (htail : ∀ fuel, Spoils (fuel + 16) tail) (hstart : StartsPlainly tail) (hne : tail ≠ []) :
    (parse dialect (String.ofList (scriptText lines ++ tail))).succeeded = false := by
  have hsource : (String.ofList (scriptText lines ++ tail)).toList = scriptText lines ++ tail :=
    String.toList_ofList
  generalize String.ofList (scriptText lines ++ tail) = source at hsource ⊢
  rcases parse_lines hplain (.inr htail) hstart hsource with ⟨_, _, ⟨-, hnil, -⟩, -⟩ | ⟨hpanicked, -⟩
  · exact absurd hnil hne
  · rw [Parsed.succeeded, hpanicked]
    rfl

end

end PackageRefs.Plain
