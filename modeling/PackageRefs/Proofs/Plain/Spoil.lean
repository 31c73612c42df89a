/-
# What cannot be read behind a line

Two texts that a search can leave behind plain lines, and that spoil them.

* `spoils_comment`: a block comment that ends too soon, so its own end stands behind it.
* `spoils_statement`: a statement with the end of a comment behind it.

Both times the reader comes to `*` where a statement should start, and gives up (`stuck_of_end`).
-/
import PackageRefs.Proofs.Plain.Script

namespace PackageRefs.Plain

open PackageRefs.Script PackageRefs.Text

section

variable {old : List Comment} {pos fuel : Nat} {text rest c : List Char} {s : State}

/-! ## 1. The end of a comment -/

/-- The end of a comment by itself starts no statement. -/
theorem stuck_of_end (h : Enters Quiet pos ('*' :: '/' :: rest) s) (fuel : Nat) : Stuck (fuel + 6) s := by
  obtain ⟨hlexeme, -, -, hready, -⟩ := h.first (fun _ h => h) (next_times rest)
  refine ⟨by simp [hlexeme], ?_⟩
  rw [Parser.goal_statement (fuel + 5) hready.toClean,
    Parser.statementIn_of_mark hlexeme (.inr (.inr rfl))]
  refine Parser.expressionStatement_meets (fuel + 4) ?_
  exact Parser.goal_assignment_of_mark fuel (ready_within hready) (.inr (.inr rfl)) hlexeme

theorem Enters.spaces {gathered : CommentLog → Prop} {blanks : List Char} (hblanks : ∀ d ∈ blanks, d = ' ')
    (h : Enters gathered pos (blanks ++ text) s) : Enters gathered (pos + blanks.length) text s := by
  induction blanks generalizing pos with
  | nil => exact h
  | cons d blanks ih =>
    rw [List.forall_mem_cons] at hblanks
    obtain rfl := hblanks.1
    have hnext := ih hblanks.2 h.space
    rw [Nat.add_assoc, Nat.add_comm 1] at hnext
    exact hnext

/-- A block comment that is not the last on its line. -/
theorem Enters.block (h : Enters (Gathers old) pos ('/' :: '*' :: (c ++ '*' :: '/' :: rest)) s)
    (hopen : ¬"*/".toList <:+: c) (hline : ∀ d ∈ c, Lexer.isLineBreak d = false)
    (hcontent : Line.isUnannotated c = true) : Enters Quiet (pos + 2 + (c.length + 2)) rest s := by
  obtain ⟨s₀, fresh, log, fresh', hclean, hgathered, hs, hskip⟩ := h
  obtain ⟨hcall, hfunction⟩ := contentOf_of_isUnannotated hcontent
  rw [Lexer.skipTrivia, skipTrivia_block hopen hline] at hskip
  refine ⟨s₀, fresh, _, fresh', hclean, ?_, hs, hskip⟩
  have hsaid : commentContent false ('/' :: '*' :: (c ++ ['*', '/'])) = contentOf c := by
    simp [commentContent]
  constructor <;> simp [CommentLog.add, hsaid, hcall, hfunction, hgathered.call, hgathered.function]

/-- **A comment that ends too soon** leaves its own end behind. -/
theorem spoils_comment (hopen : ¬"*/".toList <:+: c) (hline : ∀ d ∈ c, Lexer.isLineBreak d = false)
    (hcontent : Line.isUnannotated c = true) {blanks : List Char} (hblanks : ∀ d ∈ blanks, d = ' ')
    (rest : List Char) (fuel : Nat) :
    Spoils (fuel + 6) ('/' :: '*' :: (c ++ '*' :: '/' :: (blanks ++ '*' :: '/' :: rest))) := by
  intro old pos s h
  have hstuck := stuck_of_end ((h.block hopen hline hcontent).spaces hblanks) fuel
  exact ⟨hstuck.1, hstuck.2.imp (fun _ _ h => h.elim) id⟩

/-! ## 2. A statement with the end of a comment behind it -/

/-- **A statement that the end of a comment follows** is the last that can be read. -/
theorem spoils_statement {l : Line} (hplain : l.isPlain = true) (hcode : l.isComment = false)
    (rest : List Char) (hfuel : l.depth ≤ fuel + 5) :
    Spoils (fuel + 6) (l.text ++ ' ' :: '*' :: '/' :: rest) := by
  intro old pos s h
  obtain ⟨hsees, hrest, -⟩ := h.line hplain hcode
  refine ⟨not_end_of_sees hcode hsees, (reads_line hplain hcode hfuel hsees).imp ?_ fun _ => trivial⟩
  rintro t u ⟨-, rfl, -, htree⟩
  obtain ⟨first, second, others, hlexemes⟩ := Line.exists_lexemes hcode
  have hlength : l.lexemes.length = l.lexemes.length - 1 + 1 := by
    rw [hlexemes]
    rfl
  obtain ⟨hready, -⟩ := hsees.last (by rw [hlexemes, List.length_cons, List.length_cons]; omega)
  have hnext := enters_next hready
  rw [hrest, ← skip_succ, ← hlength] at hnext
  exact ⟨htree.not_directive hplain, stuck_of_end hnext.space fuel⟩

end

end PackageRefs.Plain
