/-
# Comments that close themselves

A comment that is put around a statement is opened and closed by what is put there, and the ends of comments in
the statement are broken up.  Nothing in one search can spoil this, as its finds stand side by side.  But the
searches run one after the other, and a later one can find something that an earlier one has put into a
comment already.

* `Closes` says that a comment is in one piece, with no other opener and no end of a comment inside.
* `Apart` says that a find does not meet a comment: no opener or closer is in its statement, and no comment is
  opened before it and closed behind it.

**The result** (`comments_close_iff`): all comments close themselves exactly if each search finds only what is
apart from the comments that were made before it.

**Where they do not.**  A declaration whose call of `require` starts a line of its own is found twice, as a
declaration and as a call at the start of a line: `Example.broken_declaration_reopened`.
-/
import PackageRefs.Proofs.Removal.Insertion

namespace PackageRefs

open PackageRefs.Text

/-! ## 1. Comments in a traced text -/

/-- The comment of the number is in the text in one piece: what opens it, a body without another opener and
without an end of a comment, and what closes it. -/
def Closes (n : Nat) (letters : List Traced) : Prop :=
  ∃ pre body post,
    letters = pre ++ (delimiter .opener n ++ body ++ delimiter .closer n ++ post) ∧
      (∀ t ∈ body, ∀ m, t.origin ≠ .delimiter .opener m) ∧ ¬"*/".toList <:+: textOf body

/-- Where the letters of a text come from. -/
def originsOf (letters : List Traced) : List Origin := letters.map Traced.origin

@[simp] theorem originsOf_append (ts us : List Traced) :
    originsOf (ts ++ us) = originsOf ts ++ originsOf us :=
  List.map_append

theorem mem_originsOf_delimiter {origin : Origin} {which : Delimiter} {n : Nat} :
    origin ∈ originsOf (delimiter which n) ↔ origin = .delimiter which n := by
  have hne : which.text ≠ [] := by cases which <;> decide
  simp [originsOf, delimiter, allFrom, eq_comm, List.exists_mem_of_ne_nil _ hne]

theorem textFrom_eq_nil_iff_not_mem {origin : Origin} {ts : List Traced} :
    textFrom origin ts = [] ↔ origin ∉ originsOf ts := by
  simp [textFrom_eq_nil_iff, originsOf]

/-- Three things do not follow each other in a list if the first and the last one are only in a part of it in
which the second one is not. -/
theorem not_sublist_of_not_mem {α : Type} {a b c : α} {pre mid post : List α} (ha : a ∉ pre) (hb : b ∉ mid)
    (hc : c ∉ post) : ¬[a, b, c].Sublist (pre ++ (mid ++ post)) := by
  intro h
  obtain ⟨first, others, heq, hfirst, hothers⟩ := List.sublist_append_iff.mp h
  obtain ⟨second, third, rfl, hsecond, hthird⟩ := List.sublist_append_iff.mp hothers
  match first, second, third, heq with
  | [], second, [], heq =>
    obtain rfl : second = [a, b, c] := by simpa using heq.symm
    exact hb (hsecond.mem (by simp))
  | [], second, d :: third, heq =>
    have hmem : c ∈ d :: third := by
      have hlast := congrArg List.getLast? heq
      rw [List.nil_append, List.getLast?_append_of_ne_nil _ (by simp)] at hlast
      exact List.mem_of_getLast? hlast.symm
    exact hc (hthird.mem hmem)
  | d :: first, _, _, heq =>
    obtain ⟨rfl, -⟩ := List.cons.inj heq
    exact ha (hfirst.mem (by simp))

/-- What is all of a text is all that is around it. -/
theorem eq_nil_of_append {α : Type} {pre mid rest : List α} (h : pre ++ (mid ++ rest) = mid) :
    pre = [] ∧ rest = [] := by
  have hlength := congrArg List.length h
  rw [List.length_append, List.length_append] at hlength
  exact ⟨List.eq_nil_of_length_eq_zero (by omega), List.eq_nil_of_length_eq_zero (by omega)⟩

/-- Where the comment of a number closes itself and its opener and its closer are nowhere else, no other
comment is opened between them, and they do not stand the other way round. -/
theorem Closes.not_sublist {n : Nat} {letters : List Traced} (h : Closes n letters)
    (hopener : textFrom (.delimiter .opener n) letters = removedOpener)
    (hcloser : textFrom (.delimiter .closer n) letters = removedCloser) :
    (∀ m, m ≠ n → ¬[.delimiter .opener n, .delimiter .opener m, .delimiter .closer n].Sublist
        (originsOf letters)) ∧
      ¬[.delimiter .closer n, .delimiter .opener n].Sublist (originsOf letters) := by
  obtain ⟨pre, body, post, rfl, hbody, -⟩ := h
  have hbefore : Origin.delimiter .opener n ∉ originsOf pre ∧
      Origin.delimiter .opener n ∉ originsOf (body ++ delimiter .closer n ++ post) := by
    rw [← textFrom_eq_nil_iff_not_mem, ← textFrom_eq_nil_iff_not_mem]
    have hparts : textFrom (.delimiter .opener n) pre ++ (removedOpener ++
        textFrom (.delimiter .opener n) (body ++ delimiter .closer n ++ post)) = removedOpener := by
      refine Eq.trans ?_ hopener
      simp [textFrom_delimiter, Delimiter.text]
    exact eq_nil_of_append hparts
  have hbehind : Origin.delimiter .closer n ∉ originsOf (pre ++ delimiter .opener n ++ body) ∧
      Origin.delimiter .closer n ∉ originsOf post := by
    rw [← textFrom_eq_nil_iff_not_mem, ← textFrom_eq_nil_iff_not_mem]
    have hparts : textFrom (.delimiter .closer n) (pre ++ delimiter .opener n ++ body) ++ (removedCloser ++
        textFrom (.delimiter .closer n) post) = removedCloser := by
      refine Eq.trans ?_ hcloser
      simp [textFrom_delimiter, Delimiter.text]
    exact eq_nil_of_append hparts
  constructor
  · intro m hne
    rw [originsOf_append, originsOf_append]
    refine not_sublist_of_not_mem hbefore.1 ?_ hbehind.2
    simp only [originsOf_append, List.mem_append, mem_originsOf_delimiter, Origin.delimiter.injEq, hne,
      and_false, false_or, or_false, reduceCtorEq]
    intro hmem
    obtain ⟨t, ht, horigin⟩ := List.mem_map.mp hmem
    exact hbody t ht m horigin
  · rw [show pre ++ (delimiter .opener n ++ body ++ delimiter .closer n ++ post) =
      (pre ++ delimiter .opener n ++ body) ++ (delimiter .closer n ++ post) by simp, originsOf_append]
    intro hsublist
    obtain ⟨first, second, heq, hfirst, hsecond⟩ := List.sublist_append_iff.mp hsublist
    cases first with
    | nil =>
      refine hbefore.2 ?_
      have hmem := hsecond.mem (heq ▸ List.mem_cons_of_mem _ (List.mem_singleton_self _))
      rw [List.append_assoc, originsOf_append]
      exact List.mem_append_right _ hmem
    | cons o first =>
      obtain ⟨rfl, -⟩ := List.cons.inj heq
      exact hbehind.1 (hfirst.mem (by simp))

/-! ## 2. Pieces with comments -/

theorem commentPieces_append (comment : Nat) (ps qs : List Piece) :
    commentPieces comment (ps ++ qs) =
      commentPieces comment ps ++ commentPieces (comment + ps.countP Piece.isFound) qs := by
  induction ps generalizing comment with
  | nil => rfl
  | cons p ps ih =>
    rw [List.cons_append, commentPieces, commentPieces, ih, List.append_assoc, List.countP_cons]
    congr 3
    split <;> omega

theorem sublist_broken (ts : List Traced) : ts.Sublist (broken ts) := by
  fun_induction broken ts with
  | case1 s t r hend ih => exact .cons_cons s (.cons _ (.cons_cons t ih))
  | case2 s t r hend ih => exact .cons_cons s ih
  | case3 => exact List.Sublist.refl _

/-- Comments keep the letters in their order. -/
theorem sublist_commentPieces (comment : Nat) (ps : List Piece) :
    (ps.flatMap Piece.letters).Sublist (commentPieces comment ps) := by
  induction ps generalizing comment with
  | nil => exact List.Sublist.refl _
  | cons p ps ih =>
    rw [List.flatMap_cons, commentPieces]
    refine List.Sublist.append ?_ (ih _)
    cases p with
    | kept t => exact List.Sublist.refl _
    | found lead ts =>
      have hstatement : (ts.drop lead).Sublist
          (delimiter .opener comment ++ broken (ts.drop lead) ++ delimiter .closer comment) :=
        (sublist_broken _).trans ((List.sublist_append_right ..).trans (List.sublist_append_left ..))
      calc ts
        _ = ts.take lead ++ ts.drop lead := (List.take_append_drop lead ts).symm
        List.Sublist _ (ts.take lead ++ (delimiter .opener comment ++ broken (ts.drop lead) ++
            delimiter .closer comment)) := (List.Sublist.refl _).append hstatement
        _ = _ := by simp [Piece.commentedOut]

/-- The find around which the comment of a number is. -/
theorem exists_found {comment n : Nat} {ps : List Piece} (hle : comment ≤ n)
    (hlt : n < comment + ps.countP Piece.isFound) :
    ∃ before lead ts behind, ps = before ++ .found lead ts :: behind ∧
      n = comment + before.countP Piece.isFound := by
  induction ps generalizing comment with
  | nil =>
    rw [List.countP_nil] at hlt
    omega
  | cons p ps ih =>
    cases p with
    | kept t =>
      rw [List.countP_cons] at hlt
      obtain ⟨before, lead, ts, behind, rfl, rfl⟩ := ih hle (by simpa [Piece.isFound] using hlt)
      exact ⟨.kept t :: before, lead, ts, behind, rfl, by simp [Piece.isFound]⟩
    | found lead ts =>
      rw [List.countP_cons] at hlt
      by_cases hfirst : comment = n
      · exact ⟨[], lead, ts, ps, rfl, by simpa using hfirst.symm⟩
      · have hlt : n < comment + 1 + ps.countP Piece.isFound := by
          simp [Piece.isFound] at hlt
          omega
        obtain ⟨before, lead', ts', behind, rfl, rfl⟩ := ih (by omega) hlt
        exact ⟨.found lead ts :: before, lead', ts', behind, rfl, by
          simp [List.countP_cons, Piece.isFound]
          omega⟩

/-- What is around a find, when comments are put in. -/
theorem commentPieces_found (comment : Nat) (before behind : List Piece) (lead : Nat) (ts : List Traced) :
    commentPieces comment (before ++ .found lead ts :: behind) =
      (commentPieces comment before ++ ts.take lead) ++
        (delimiter .opener (comment + before.countP Piece.isFound) ++ broken (ts.drop lead) ++
          delimiter .closer (comment + before.countP Piece.isFound) ++
            commentPieces (comment + before.countP Piece.isFound + 1) behind) := by
  rw [commentPieces_append, commentPieces]
  simp [Piece.commentedOut, Piece.isFound]

/-- The comment of a find stands around its statement, with everything else in its order. -/
theorem sublist_commentPieces_found (comment : Nat) (before behind : List Piece) (lead : Nat)
    (ts : List Traced) :
    (before.flatMap Piece.letters ++ ts.take lead ++
      (delimiter .opener (comment + before.countP Piece.isFound) ++ (ts.drop lead ++
        (delimiter .closer (comment + before.countP Piece.isFound) ++
          behind.flatMap Piece.letters)))).Sublist
      (commentPieces comment (before ++ .found lead ts :: behind)) := by
  rw [commentPieces_found, List.append_assoc (delimiter ..), List.append_assoc (delimiter ..),
    List.append_assoc (broken _)]
  have hbefore := (sublist_commentPieces comment before).append (List.Sublist.refl (ts.take lead))
  have hbehind := (List.Sublist.refl (delimiter .closer (comment + before.countP Piece.isFound))).append
    (sublist_commentPieces (comment + before.countP Piece.isFound + 1) behind)
  exact hbefore.append ((List.Sublist.refl _).append ((sublist_broken _).append hbehind))

/-! ## 3. Finds apart from comments -/

/-- A find does not meet a comment: its statement has nothing of what opens or closes one, and no comment is
opened before it and closed behind it. -/
structure Apart (before statement behind : List Traced) : Prop where
  outside : ∀ which n, .delimiter which n ∉ originsOf statement
  notInside : ∀ n, ¬(.delimiter .opener n ∈ originsOf before ∧ .delimiter .closer n ∈ originsOf behind)

/-- All finds among the pieces are apart from the comments in the text. -/
def FindsApart (ps : List Piece) : Prop :=
  ∀ before lead ts behind, ps = before ++ .found lead ts :: behind →
    Apart (before.flatMap Piece.letters ++ ts.take lead) (ts.drop lead) (behind.flatMap Piece.letters)

/-- Each of the searches finds only what is apart from the comments that were made before. -/
def Draft.AllApart : List (Finder Nat) → Draft → Prop
  | [], _ => True
  | find :: finds, d => FindsApart (d.pieces find) ∧ AllApart finds (d.commentOut find)

/-- A find that is apart stands before the opener of a comment or behind its closer. -/
theorem Apart.not_mem {before statement behind : List Traced} (h : Apart before statement behind) (n : Nat) :
    .delimiter .closer n ∉ originsOf (statement ++ behind) ∨
      .delimiter .opener n ∉ originsOf (before ++ statement) := by
  simp only [originsOf_append, List.mem_append, h.outside, false_or, or_false]
  exact not_and_or.mp (and_comm.not.mp (h.notInside n))

/-- A find whose comment stands in its place among the others is apart, if no comment is opened inside of
another one and none is closed before it is opened. -/
theorem Apart.of_order {front statement back letters : List Traced} {m : Nat}
    (horder : (front ++ (delimiter .opener m ++ (statement ++ (delimiter .closer m ++ back)))).Sublist letters)
    (hother : ∀ which n, .delimiter which n ∈ originsOf (front ++ (statement ++ back)) →
      n ≠ m ∧ .delimiter .opener n ∈ originsOf (front ++ (statement ++ back)))
    (hinside : ∀ n k, k ≠ n →
      ¬[.delimiter .opener n, .delimiter .opener k, .delimiter .closer n].Sublist (originsOf letters))
    (hreversed : ∀ n, ¬[.delimiter .closer n, .delimiter .opener n].Sublist (originsOf letters)) :
    Apart front statement back := by
  have horigins : (originsOf front ++ (originsOf (delimiter .opener m) ++ (originsOf statement ++
      (originsOf (delimiter .closer m) ++ originsOf back)))).Sublist (originsOf letters) := by
    simpa [originsOf] using horder.map Traced.origin
  simp only [originsOf_append, List.mem_append] at hother
  have hm : ∀ which, [.delimiter which m].Sublist (originsOf (delimiter which m)) := fun which =>
    List.singleton_sublist.mpr (mem_originsOf_delimiter.mpr rfl)
  -- the comment of the find is not opened inside of another one,
  have haround : ∀ n, .delimiter .opener n ∈ originsOf front →
      ¬(.delimiter .closer n ∈ originsOf statement ∨ .delimiter .closer n ∈ originsOf back) := by
    intro n hfront hcloser
    refine hinside n m (hother _ n (.inl hfront)).1.symm (List.Sublist.trans ?_ horigins)
    refine (List.singleton_sublist.mpr hfront).append ((hm .opener).append ?_)
    refine List.singleton_sublist.mpr ?_
    simp only [List.mem_append]
    exact hcloser.imp_right .inr
  -- and no other one is opened inside of it
  have hopener : ∀ n, .delimiter .opener n ∉ originsOf statement := by
    intro n hmem
    refine hinside m n (hother _ n (.inr (.inl hmem))).1 (List.Sublist.trans ?_ horigins)
    refine (List.nil_sublist _).append ((hm .opener).append ((List.singleton_sublist.mpr hmem).append ?_))
    exact (hm .closer).append (List.nil_sublist _)
  have hcloser : ∀ n, .delimiter .closer n ∉ originsOf statement := by
    intro n hmem
    rcases (hother _ n (.inr (.inl hmem))).2 with hfront | hstatement | hback
    · exact haround n hfront (.inl hmem)
    · exact hopener n hstatement
    · refine hreversed n (List.Sublist.trans ?_ horigins)
      refine (List.nil_sublist _).append ((List.nil_sublist _).append ?_)
      refine (List.singleton_sublist.mpr hmem).append ((List.nil_sublist _).append ?_)
      exact List.singleton_sublist.mpr hback
  exact {
    outside := fun which n => by cases which <;> [exact hopener n; exact hcloser n]
    notInside := fun n ⟨hfront, hback⟩ => haround n hfront (.inr hback) }

/-- What ends with a letter that is only in the first part is in the first part. -/
theorem exists_append_of_last {origin : Origin} {front post first second : List Traced}
    (h : front ++ post = first ++ second) (hlast : (originsOf front).getLast? = some origin)
    (hsecond : origin ∉ originsOf second) : ∃ more, first = front ++ more := by
  rcases List.append_eq_append_iff.mp h with ⟨more, hfirst, -⟩ | ⟨more, rfl, rfl⟩
  · exact ⟨more, hfirst⟩
  · match more with
    | [] => exact ⟨[], by simp⟩
    | t :: more =>
      refine absurd ?_ hsecond
      rw [originsOf_append, List.getLast?_append_of_ne_nil _ (by simp [originsOf])] at hlast
      rw [originsOf_append]
      exact List.mem_append_left _ (List.mem_of_getLast? hlast)

/-- A find behind the closer of a comment leaves everything up to the closer in one piece. -/
theorem commentPieces_behind {n lead : Nat} {front post ts : List Traced} {ps : List Piece}
    (h : ts ++ ps.flatMap Piece.letters = front ++ post)
    (hlast : (originsOf front).getLast? = some (.delimiter .closer n))
    (hcloser : .delimiter .closer n ∉ originsOf (ts.drop lead ++ ps.flatMap Piece.letters)) (comment : Nat) :
    ∃ post', commentPieces comment (.found lead ts :: ps) = front ++ post' := by
  have hsplit : front ++ post = ts.take lead ++ (ts.drop lead ++ ps.flatMap Piece.letters) := by
    rw [← h, ← List.append_assoc, List.take_append_drop]
  obtain ⟨more, hmore⟩ := exists_append_of_last hsplit hlast hcloser
  refine ⟨more ++ (delimiter .opener comment ++ (broken (ts.drop lead) ++ (delimiter .closer comment ++
    commentPieces (comment + 1) ps))), ?_⟩
  rw [commentPieces, Piece.commentedOut, hmore]
  simp [Piece.isFound]

/-- What ends with the closer of a comment stays in one piece at the front, if every find stands behind the
closer. -/
theorem commentPieces_front {n : Nat} {ps : List Piece} {front post : List Traced}
    (h : ps.flatMap Piece.letters = front ++ post)
    (hlast : (originsOf front).getLast? = some (.delimiter .closer n))
    (hbefore : ∀ before lead ts behind, ps = before ++ .found lead ts :: behind →
      .delimiter .closer n ∉ originsOf (ts.drop lead ++ behind.flatMap Piece.letters)) (comment : Nat) :
    ∃ post', commentPieces comment ps = front ++ post' := by
  induction ps generalizing front comment with
  | nil =>
    obtain ⟨rfl, -⟩ := List.append_eq_nil_iff.mp h.symm
    cases hlast
  | cons p ps ih =>
    cases p with
    | kept t =>
      match front with
      | [] => cases hlast
      | [u] =>
        obtain ⟨rfl, -⟩ := List.cons.inj h
        exact ⟨_, rfl⟩
      | u :: v :: front =>
        obtain ⟨rfl, hrest⟩ := List.cons.inj h
        obtain ⟨post', hpost⟩ := @ih (v :: front) hrest (by simpa [originsOf] using hlast)
          (fun before lead ts behind heq => hbefore (.kept t :: before) lead ts behind (heq ▸ rfl)) comment
        exact ⟨post', congrArg (t :: ·) hpost⟩
    | found lead ts =>
      exact commentPieces_behind h hlast (hbefore [] lead ts ps rfl) comment

/-- What starts with the opener of a comment is not begun in a text without it. -/
theorem exists_append_of_first {origin : Origin} {pre block post first second : List Traced}
    (h : first ++ second = pre ++ (block ++ post)) (hhead : (originsOf block).head? = some origin)
    (hfirst : origin ∉ originsOf first) : ∃ more, second = more ++ (block ++ post) := by
  rcases List.append_eq_append_iff.mp h with ⟨more, -, hsecond⟩ | ⟨more, rfl, hmore⟩
  · exact ⟨more, hsecond⟩
  · match more, block, hmore, hhead with
    | [], _, hmore, _ => exact ⟨[], hmore.symm⟩
    | t :: more, u :: block, hmore, hhead =>
      obtain ⟨rfl, -⟩ := List.cons.inj hmore
      refine absurd ?_ hfirst
      rw [originsOf_append]
      exact List.mem_append_right _ (List.mem_of_head? hhead)

/-- **A comment stays in one piece** if every find stands before its opener or behind its closer. -/
theorem commentPieces_block {n : Nat} {ps : List Piece} {pre block post : List Traced}
    (h : ps.flatMap Piece.letters = pre ++ (block ++ post))
    (hfirst : (originsOf block).head? = some (.delimiter .opener n))
    (hlast : (originsOf block).getLast? = some (.delimiter .closer n))
    (hapart : ∀ before lead ts behind, ps = before ++ .found lead ts :: behind →
      .delimiter .closer n ∉ originsOf (ts.drop lead ++ behind.flatMap Piece.letters) ∨
        .delimiter .opener n ∉ originsOf (before.flatMap Piece.letters ++ ts)) (comment : Nat) :
    ∃ pre' post', commentPieces comment ps = pre' ++ (block ++ post') := by
  induction ps generalizing pre comment with
  | nil =>
    obtain ⟨-, hblock⟩ := List.append_eq_nil_iff.mp h.symm
    obtain ⟨rfl, -⟩ := List.append_eq_nil_iff.mp hblock
    cases hlast
  | cons p ps ih =>
    have hbehind : ∀ before lead ts behind, ps = before ++ .found lead ts :: behind →
        .delimiter .closer n ∉ originsOf (ts.drop lead ++ behind.flatMap Piece.letters) ∨
          .delimiter .opener n ∉ originsOf (before.flatMap Piece.letters ++ ts) := by
      intro before lead ts behind heq
      refine (hapart (p :: before) lead ts behind (heq ▸ rfl)).imp_right fun hnot hmem => hnot ?_
      rw [List.flatMap_cons, List.append_assoc, originsOf_append]
      exact List.mem_append_right _ hmem
    cases p with
    | kept t =>
      match pre, h with
      | [], h =>
        rw [List.nil_append] at h
        -- the block starts here, so that no find stands before its opener
        have hstart : t.origin = .delimiter .opener n := by
          match block, hfirst with
          | u :: block, hfirst =>
            obtain ⟨rfl, -⟩ := List.cons.inj h
            simpa [originsOf] using hfirst
        have hbefore : ∀ before lead ts behind, .kept t :: ps = before ++ .found lead ts :: behind →
            .delimiter .closer n ∉ originsOf (ts.drop lead ++ behind.flatMap Piece.letters) := by
          intro before lead ts behind heq
          refine (hapart before lead ts behind heq).resolve_right (not_not_intro ?_)
          match before, heq with
          | p :: before, heq =>
            obtain ⟨rfl, -⟩ := List.cons.inj heq
            simp [originsOf, Piece.letters, hstart]
        obtain ⟨post', hpost⟩ := commentPieces_front h hlast hbefore comment
        exact ⟨[], post', hpost⟩
      | u :: pre, h =>
        obtain ⟨rfl, hrest⟩ := List.cons.inj h
        obtain ⟨pre', post', hpost⟩ := ih hrest hbehind comment
        exact ⟨t :: pre', post', congrArg (t :: ·) hpost⟩
    | found lead ts =>
      rcases hapart [] lead ts ps rfl with hcloser | hopener
      · -- the find stands behind the closer
        rw [← List.append_assoc] at h
        have hend : (originsOf (pre ++ block)).getLast? = some (.delimiter .closer n) := by
          rw [originsOf_append, List.getLast?_append, hlast, Option.some_or]
        obtain ⟨post', hpost⟩ := commentPieces_behind h hend hcloser comment
        exact ⟨pre, post', hpost.trans (List.append_assoc ..)⟩
      · -- it stands before the opener
        obtain ⟨more, hmore⟩ := exists_append_of_first h hfirst hopener
        obtain ⟨pre', post', hpost⟩ := ih hmore hbehind (comment + 1)
        refine ⟨Piece.commentedOut comment (.found lead ts) ++ pre', post', ?_⟩
        rw [commentPieces, Piece.isFound, if_pos rfl, hpost, List.append_assoc]

/-! ## 4. All comments -/

namespace Draft

/-- All comments that have been made close themselves. -/
def AllClose (d : Draft) : Prop := ∀ n < d.comments, Closes n d.letters

variable {source : List Char} {gaps : Nat} {d : Draft} {find : Finder Nat}

/-- What stands around comments is that of the comments that have been made. -/
theorem Accounts.lt_comments (h : d.Accounts source gaps) {which : Delimiter} {n : Nat}
    (hmem : .delimiter which n ∈ originsOf d.letters) : n < d.comments := by
  by_contra hle
  refine textFrom_eq_nil_iff_not_mem.mp ?_ hmem
  rw [h.delimiter, if_neg hle]

theorem Accounts.mem_originsOf (h : d.Accounts source gaps) (which : Delimiter) {n : Nat}
    (hlt : n < d.comments) : .delimiter which n ∈ originsOf d.letters := by
  by_contra hmem
  have hnone := textFrom_eq_nil_iff_not_mem.mpr hmem
  rw [h.delimiter, if_pos hlt] at hnone
  cases which <;> cases hnone

/-- A comment stays in one piece when a search finds only what is apart from it. -/
theorem closes_commentOut_of_old {n : Nat} (hfind : find.Advances) (h : Closes n d.letters)
    (hapart : FindsApart (d.pieces find)) : Closes n (d.commentOut find).letters := by
  obtain ⟨pre, body, post, hletters, hbody, hend⟩ := h
  have hfirst : (originsOf (delimiter .opener n ++ body ++ delimiter .closer n)).head? =
      some (.delimiter .opener n) := rfl
  have hlast : (originsOf (delimiter .opener n ++ body ++ delimiter .closer n)).getLast? =
      some (.delimiter .closer n) := by
    rw [originsOf_append, List.getLast?_append, show (originsOf (delimiter .closer n)).getLast? =
      some (.delimiter .closer n) from rfl, Option.some_or]
  have hfinds : ∀ before lead ts behind, d.pieces find = before ++ .found lead ts :: behind →
      .delimiter .closer n ∉ originsOf (ts.drop lead ++ behind.flatMap Piece.letters) ∨
        .delimiter .opener n ∉ originsOf (before.flatMap Piece.letters ++ ts) := by
    intro before lead ts behind heq
    have hnot := (hapart before lead ts behind heq).not_mem n
    rwa [List.append_assoc, List.take_append_drop] at hnot
  obtain ⟨pre', post', hpost⟩ := commentPieces_block ((d.letters_pieces hfind).trans hletters) hfirst hlast
    hfinds d.comments
  exact ⟨pre', body, post', hpost, hbody, hend⟩

/-- The comments of a search close themselves when it finds nothing of other comments. -/
theorem closes_commentOut_of_new {n : Nat} (hapart : FindsApart (d.pieces find)) (hle : d.comments ≤ n)
    (hlt : n < (d.commentOut find).comments) : Closes n (d.commentOut find).letters := by
  obtain ⟨before, lead, ts, behind, heq, rfl⟩ := exists_found hle hlt
  refine ⟨_, broken (ts.drop lead), _, by rw [commentOut, heq, commentPieces_found], ?_, ?_⟩
  · intro t ht m
    have hopener : textFrom (.delimiter .opener m) (broken (ts.drop lead)) = [] := by
      rw [textFrom_broken (by simp), textFrom_eq_nil_iff_not_mem]
      exact (hapart before lead ts behind heq).outside .opener m
    exact textFrom_eq_nil_iff.mp hopener t ht
  · rw [textOf_broken]
    exact not_infix_breakTerminators _

/-- **One search** that finds only what is apart from the comments leaves all comments closed. -/
theorem AllClose.commentOut (h : d.AllClose) (hfind : find.Advances) (hapart : FindsApart (d.pieces find)) :
    (d.commentOut find).AllClose := by
  intro n hlt
  by_cases hold : n < d.comments
  · exact closes_commentOut_of_old hfind (h n hold) hapart
  · exact closes_commentOut_of_new hapart (Nat.not_lt.mp hold) hlt

/-- **All searches**, each of which finds only what is apart. -/
theorem AllClose.foldl_commentOut {finds : List (Finder Nat)} (h : d.AllClose)
    (hfinds : ∀ find ∈ finds, find.Advances) (hapart : AllApart finds d) :
    (finds.foldl Draft.commentOut d).AllClose := by
  induction finds generalizing d with
  | nil => exact h
  | cons find finds ih =>
    obtain ⟨hfind, hrest⟩ := List.forall_mem_cons.mp hfinds
    exact ih (h.commentOut hfind hapart.1) hrest hapart.2

/-- Searches keep the letters in their order, and the comments. -/
theorem sublist_foldl_commentOut {finds : List (Finder Nat)} (hfinds : ∀ find ∈ finds, find.Advances)
    (d : Draft) : d.letters.Sublist (finds.foldl Draft.commentOut d).letters ∧
      d.comments ≤ (finds.foldl Draft.commentOut d).comments := by
  induction finds generalizing d with
  | nil => exact ⟨List.Sublist.refl _, Nat.le_refl _⟩
  | cons find finds ih =>
    obtain ⟨hfind, hrest⟩ := List.forall_mem_cons.mp hfinds
    obtain ⟨hletters, hcomments⟩ := ih hrest (d.commentOut find)
    have hfirst := sublist_commentPieces d.comments (d.pieces find)
    rw [d.letters_pieces hfind] at hfirst
    exact ⟨hfirst.trans hletters, (Nat.le_add_right ..).trans hcomments⟩

/-- What is before a find, its statement and what is behind it are the text that is searched. -/
theorem letters_of_found (hfind : find.Advances) {before behind : List Piece} {lead : Nat} {ts : List Traced}
    (heq : d.pieces find = before ++ .found lead ts :: behind) :
    d.letters = before.flatMap Piece.letters ++ ts.take lead ++
      (ts.drop lead ++ behind.flatMap Piece.letters) := by
  rw [← d.letters_pieces hfind, heq, List.append_assoc, ← List.append_assoc (ts.take lead),
    List.take_append_drop, List.flatMap_append, List.flatMap_cons, Piece.letters]

/-- Where all comments of a later text close themselves, a search before has found only what is apart: otherwise
its comment is opened or closed inside of another one, or the other way round. -/
theorem AllClose.findsApart {later : Draft} {gaps' : Nat} (h : later.AllClose)
    (hlater : later.Accounts source gaps') (haccount : d.Accounts source gaps) (hfind : find.Advances)
    (hletters : (d.commentOut find).letters.Sublist later.letters)
    (hcomments : (d.commentOut find).comments ≤ later.comments) : FindsApart (d.pieces find) := by
  intro before lead ts behind heq
  have hparts := letters_of_found hfind heq
  have horder := sublist_commentPieces_found d.comments before behind lead ts
  rw [← heq] at horder
  have hm : d.comments + before.countP Piece.isFound < later.comments := by
    refine Nat.lt_of_lt_of_le ?_ hcomments
    simp [Draft.commentOut, heq, Piece.isFound]
  have hclosed : ∀ n < later.comments,
      (∀ k, k ≠ n → ¬[.delimiter .opener n, .delimiter .opener k, .delimiter .closer n].Sublist
        (originsOf later.letters)) ∧
        ¬[.delimiter .closer n, .delimiter .opener n].Sublist (originsOf later.letters) := by
    intro n hn
    refine (h n hn).not_sublist ?_ ?_
    · rw [hlater.delimiter, if_pos hn]
      rfl
    · rw [hlater.delimiter, if_pos hn]
      rfl
  have hold : ∀ which n, .delimiter which n ∈ originsOf later.letters → n < later.comments :=
    fun which n hmem => hlater.lt_comments hmem
  refine Apart.of_order (horder.trans hletters) ?_ ?_ ?_
  · rw [← hparts]
    intro which n hmem
    have hlt := haccount.lt_comments hmem
    exact ⟨by omega, haccount.mem_originsOf .opener hlt⟩
  · intro n k hne hsublist
    exact (hclosed n (hold .opener n (hsublist.mem (by simp)))).1 k hne hsublist
  · intro n hsublist
    exact (hclosed n (hold .opener n (hsublist.mem (by simp)))).2 hsublist

/-- **The other way round**: where all comments close themselves at the end, each search has found only what is
apart. -/
theorem AllClose.allApart {finds : List (Finder Nat)} (hfinds : ∀ find ∈ finds, find.Advances)
    (haccount : d.Accounts source gaps) (h : (finds.foldl Draft.commentOut d).AllClose) : AllApart finds d := by
  induction finds generalizing d gaps with
  | nil => trivial
  | cons find finds ih =>
    obtain ⟨hfind, hrest⟩ := List.forall_mem_cons.mp hfinds
    have hfirst := haccount.commentOut hfind
    obtain ⟨hletters, hcomments⟩ := sublist_foldl_commentOut hrest (d.commentOut find)
    exact ⟨h.findsApart (hfirst.foldl_commentOut hrest) haccount hfind hletters hcomments,
      ih hrest hfirst h⟩

/-- Where at most one comment is made, the find has no comment to meet. -/
theorem allApart_of_comments_le_one {finds : List (Finder Nat)} (hfinds : ∀ find ∈ finds, find.Advances)
    (haccount : d.Accounts source gaps) (h : (finds.foldl Draft.commentOut d).comments ≤ 1) :
    AllApart finds d := by
  induction finds generalizing d gaps with
  | nil => trivial
  | cons find finds ih =>
    obtain ⟨hfind, hrest⟩ := List.forall_mem_cons.mp hfinds
    refine ⟨?_, ih hrest (haccount.commentOut hfind) h⟩
    intro before lead ts behind heq
    have hcount := (sublist_foldl_commentOut hrest (d.commentOut find)).2.trans h
    have hnone : d.comments = 0 := by
      simp only [commentOut, heq, List.countP_append, List.countP_cons, Piece.isFound, if_true] at hcount
      omega
    have hmem : ∀ which n, .delimiter which n ∉ originsOf (before.flatMap Piece.letters ++ ts.take lead ++
        (ts.drop lead ++ behind.flatMap Piece.letters)) := by
      rw [← letters_of_found hfind heq]
      intro which n hmem
      exact absurd (haccount.lt_comments hmem) (by omega)
    simp only [originsOf_append (_ ++ _), originsOf_append (List.drop _ _), List.mem_append, not_or] at hmem
    exact ⟨fun which n => (hmem which n).2.1, fun n hinside => (hmem .opener n).1 hinside.1⟩

end Draft

/-! ## 5. The whole edit -/

/-- **When comments close themselves.**  For every source and every package, all comments that are put into the
text close themselves exactly if each of the three searches finds only what is apart from the comments of the
searches before it.  So they do wherever at most one comment is made. -/
theorem comments_close_iff (source package : String) :
    ((commentOutReferences source package).text.toList = textOf (tracedReferences source package).letters ∧
        (commentOutReferences source package).count = (tracedReferences source package).comments) ∧
      ((∀ n < (commentOutReferences source package).count,
          Closes n (tracedReferences source package).letters) ↔
        (Draft.ofSource source.toList).AllApart (statementFinders package.toList)) ∧
      ((commentOutReferences source package).count ≤ 1 →
        ∀ n < (commentOutReferences source package).count,
          Closes n (tracedReferences source package).letters) := by
  have hfinds : ∀ find ∈ statementFinders package.toList, find.Advances :=
    fun find => statementFinders_advance
  have haccount := Draft.accounts_ofSource source.toList
  have hsource : (Draft.ofSource source.toList).AllClose := fun n hlt => absurd hlt (Nat.not_lt_zero n)
  have hclose : (Draft.ofSource source.toList).AllApart (statementFinders package.toList) →
      (tracedReferences source package).AllClose :=
    fun hapart => hsource.foldl_commentOut hfinds hapart
  rw [text_tracedReferences]
  refine ⟨⟨String.toList_ofList, rfl⟩, ⟨fun h => ?_, hclose⟩, fun hcount => ?_⟩
  · exact Draft.AllClose.allApart hfinds haccount h
  · exact hclose (Draft.allApart_of_comments_le_one hfinds haccount hcount)

namespace Example

/-- A declaration whose call of `require` starts a line of its own.  The second search finds all of it, the
third one the call inside the comment that the second one made: so two statements are counted, and the first
comment ends with the second one. -/
theorem broken_declaration_reopened :
    let source := "const a =\n  require('x');\n"
    commentOutReferences source "x" =
        ⟨"/* removed: const a =\n  /* removed: require('x'); */ */\n", 2⟩ ∧
      ¬∀ n < (commentOutReferences source "x").count, Closes n (tracedReferences source "x").letters := by
  intro source
  have hresult : commentOutReferences source "x" =
      ⟨"/* removed: const a =\n  /* removed: require('x'); */ */\n", 2⟩ := by decide +kernel
  refine ⟨hresult, fun h => ?_⟩
  have hcount : 0 < (tracedReferences source "x").comments := by decide +kernel
  have hinside : [.delimiter .opener 0, .delimiter .opener 1, .delimiter .closer 0].Sublist
      (originsOf (tracedReferences source "x").letters) := by decide +kernel
  have haccount := (accounts_tracedReferences source "x").delimiter
  have hfirst := (h 0 (by rw [hresult]; decide)).not_sublist
    (by rw [haccount, if_pos hcount]; rfl) (by rw [haccount, if_pos hcount]; rfl)
  exact hfirst.1 1 (by decide) hinside

end Example

end PackageRefs
