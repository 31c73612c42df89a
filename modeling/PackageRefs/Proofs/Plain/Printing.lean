/-
# Printing a plain script

The printer writes from left to right and keeps in mind what it has left open: the end of a statement, a space
before a word, the comments that are still to come.  In a plain script nothing is open between two tokens
(`Flat`), so what a writer writes is a text that does not depend on what was written before: `Writes` says which,
and the writers are followed one after the other (`Writes.bind`).

**Comments.**  A comment is written before the statement that it leads, and those that led a statement that is
gone come before the next one or at the end.  So the lines of the printed text are not those of the script, and
the result says no more of them than it needs: they are plain, and the statements are the same
(`Displays.print`).

**The result** (`Displays.readable_iff`): what is printed can be read exactly if no arrow function of the tree is
hollow.
-/
import PackageRefs.Proofs.Plain.Removal
import PackageRefs.Script.Printer

namespace PackageRefs.Script.Printer

open PackageRefs.Text

/-! ## 1. Writing -/

/-- At the depth of a script's statements, with nothing left open. -/
structure Flat (o : Output) : Prop where
  style : o.style = .spacious
  depth : o.depth = 0
  owesNothing : o.owesSemicolon = false
  startsLine : o.indentIsSpace = false
  regexEnd : o.regexEnd = none

/-- The characters have been written, and no comment. -/
structure After (o : Output) (cs : List Char) (o' : Output) : Prop where
  text : o'.text = cs.reverse ++ o.text
  comments : o'.comments = o.comments
  flat : Flat o'

/-- What is written from here on are the characters. -/
def Writes (p : Print) (o : Output) (cs : List Char) : Prop := After o cs (p.run o).2

section

variable {p q : Print} {o o' : Output} {cs ds : List Char}

theorem Writes.bind (hp : Writes p o cs) (hq : ∀ o', After o cs o' → Writes q o' ds) :
    Writes (p >>= fun _ => q) o (cs ++ ds) := by
  have hfirst : After o cs (p.run o).2 := hp
  obtain ⟨htext, hcomments, hflat⟩ := hq _ hfirst
  refine ⟨?_, hcomments.trans hfirst.comments, hflat⟩
  rw [List.reverse_append, List.append_assoc, ← hfirst.text, ← htext]
  rfl

/-- What writes nothing can come first. -/
theorem Writes.silent (hp : Writes p o []) (hq : ∀ o', After o [] o' → Writes q o' ds) :
    Writes (p >>= fun _ => q) o ds :=
  hp.bind hq

/-- Looking at the state writes nothing. -/
theorem writes_get {f : Output → Print} (h : Writes (f o) o cs) : Writes (get >>= f) o cs := h

theorem writes_isCompact {f : Bool → Print} (ho : Flat o) (h : Writes (f false) o cs) :
    Writes (isCompact >>= f) o cs := by
  have hrun : (isCompact >>= f).run o = (f (o.style == .compact)).run o := rfl
  rw [Writes, hrun, ho.style]
  exact h

theorem writes_nothing (ho : Flat o) : Writes nothing o [] := ⟨rfl, rfl, ho⟩

theorem writes_mark {f : Output → Output} (htext : (f o).text = o.text) (hcomments : (f o).comments = o.comments)
    (hflat : Flat (f o)) : Writes (mark f) o [] := ⟨htext, hcomments, hflat⟩

theorem flat_of_same (ho : Flat o) (hstyle : o'.style = o.style) (hdepth : o'.depth = o.depth)
    (howes : o'.owesSemicolon = o.owesSemicolon) (hindent : o'.indentIsSpace = o.indentIsSpace)
    (hregex : o'.regexEnd = o.regexEnd) : Flat o' :=
  ⟨hstyle.trans ho.style, hdepth.trans ho.depth, howes.trans ho.owesNothing, hindent.trans ho.startsLine,
    hregex.trans ho.regexEnd⟩

theorem writes_chars (ho : Flat o) (cs : List Char) : Writes (chars cs) o cs :=
  ⟨rfl, rfl, ho.style, ho.depth, ho.owesNothing, ho.startsLine, ho.regexEnd⟩

theorem writes_char (ho : Flat o) (c : Char) : Writes (char c) o [c] :=
  ⟨rfl, rfl, ho.style, ho.depth, ho.owesNothing, ho.startsLine, ho.regexEnd⟩

theorem writes_raw (ho : Flat o) (s : String) : Writes (raw s) o s.toList := writes_chars ho _

theorem writes_space (ho : Flat o) : Writes Printer.space o [' '] := writes_isCompact ho (writes_char ho ' ')

theorem writes_newline (ho : Flat o) : Writes Printer.newline o ['\n'] := writes_isCompact ho (writes_char ho '\n')

theorem writes_endStatement (ho : Flat o) : Writes endStatement o [';', '\n'] :=
  writes_isCompact ho ((writes_char ho ';').bind fun _ h => writes_char h.flat '\n')

theorem writes_indent (ho : Flat o) : Writes indent o [] := by
  refine writes_isCompact ho (writes_get ?_)
  simp only [ho.startsLine, ho.depth]
  exact writes_chars ho _

theorem writes_settleSemicolon (ho : Flat o) : Writes settleSemicolon o [] := by
  refine writes_get ?_
  simp only [ho.owesNothing]
  exact writes_nothing ho

/-- The last character is none of a name, so a name can follow. -/
def Apart (o : Output) : Prop := ∀ c, o.text.head? = some c → isNamePart c = false

theorem After.trans {o'' : Output} (h : After o cs o') (h' : After o' ds o'') : After o (cs ++ ds) o'' :=
  ⟨by rw [h'.text, h.text, List.reverse_append, List.append_assoc], h'.comments.trans h.comments, h'.flat⟩

theorem After.apart {d : Char} (h : After o (cs ++ [d]) o') (hd : isNamePart d = false) : Apart o' := by
  intro c hc
  rw [h.text, List.reverse_append] at hc
  obtain rfl : d = c := by simpa using hc
  exact hd

theorem After.apart_char {d : Char} (h : After o [d] o') (hd : isNamePart d = false) : Apart o' :=
  @After.apart _ _ [] _ h hd

theorem After.apart_nil (h : After o [] o') (ho : Apart o) : Apart o' := by
  intro c hc
  rw [h.text] at hc
  exact ho c hc

theorem writes_beforeName (ho : Flat o) (hapart : Apart o) : Writes beforeName o [] := by
  refine writes_get ?_
  cases htext : o.text with
  | nil => exact writes_nothing ho
  | cons c r =>
    have hc : isNamePart c = false := hapart c (by rw [htext]; rfl)
    simp only [ho.regexEnd, hc]
    exact writes_nothing ho

theorem writes_word (ho : Flat o) (hapart : Apart o) (s : String) : Writes (word s) o s.toList :=
  (writes_beforeName ho hapart).bind fun _ h => writes_raw h.flat s

theorem writes_wrapped {b : Bool} (hb : b = false) (h : Writes p o cs) : Writes (wrapped b p) o cs := by
  subst hb
  exact h

theorem writes_hasComments {pos : Nat} {f : Bool → Print} (hfree : ∀ c ∈ o.comments, c.attachedTo ≠ some pos)
    (h : Writes (f false) o cs) : Writes (hasComments pos >>= f) o cs := by
  have hnone : (o.comments.any fun c => c.attachedTo == some pos) = false := by
    simpa [List.any_eq_false] using hfree
  have hrun : (hasComments pos >>= f).run o = (f (o.comments.any fun c => c.attachedTo == some pos)).run o := rfl
  rw [Writes, hrun, hnone]
  exact h

/-! ## 2. Expressions -/

/-- A place that asks for no parentheses around an expression. -/
structure Calm (place : Place) : Prop where
  ownLine : place.sameLine = false
  called : place.noCall = false
  loose : place.level.rank ≤ Precedence.comma.rank

theorem calm_free : Calm .free := ⟨rfl, rfl, by decide⟩

theorem calm_item : Calm .item := ⟨rfl, rfl, by decide⟩

variable {place : Place} {pr : Writer}

theorem escapeChar_of_isOrdinary {c : Char} (h : Plain.isOrdinary c = true) (hquote : c ≠ '"') (next : List Char) :
    escapeChar '"' c next = [c] := by
  unfold escapeChar
  split <;> first
    | rfl
    | exact absurd h (by decide)
    | simp [hquote]

theorem escapeText_of_isOrdinary {t : List Char} (h : ∀ c ∈ t, Plain.isOrdinary c = true ∧ c ≠ '"') :
    escapeText '"' t = t := by
  induction t with
  | nil => rfl
  | cons c t ih =>
    rw [List.forall_mem_cons] at h
    rw [escapeText, escapeChar_of_isOrdinary h.1.1 h.1.2, ih h.2]
    rfl

theorem escapeClosingTag_of_isOrdinary {t : List Char} (h : ∀ c ∈ t, Plain.isOrdinary c = true) :
    escapeClosingTag t = t := by
  induction t with
  | nil => rfl
  | cons c t ih =>
    rw [List.forall_mem_cons] at h
    rw [escapeClosingTag, ih h.2]
    rintro r rfl
    exact absurd h.1 (by decide)

theorem writes_string (ho : Flat o) {t : String} (ht : ∀ c ∈ t.toList, Plain.isOrdinary c = true ∧ c ≠ '"')
    (backAllowed : Bool) : Writes (string t false backAllowed) o (Plain.Expr.inQuotes t.toList) := by
  refine writes_isCompact ho ?_
  simp only [Bool.false_eq_true, if_false, escapeText_of_isOrdinary ht]
  exact (writes_char ho '"').bind fun _ h => (writes_chars h.flat _).bind fun _ h => writes_char h.flat '"'

theorem writes_zero (ho : Flat o) (hapart : Apart o) (level : Precedence) : Writes (number .zero level) o ['0'] := by
  have hzero : number .zero level = (do beforeName; natural .zero) := by
    have h : Number.Binary64.zero.isNaN = false ∧ Number.Binary64.zero.isInfinite = false ∧
        Number.Binary64.zero.isNegative = false := by decide
    simp [number, h]
  have htext : numberText .zero = ['0'] := by decide +kernel
  rw [hzero]
  refine (writes_beforeName ho hapart).bind fun o' h => ?_
  unfold natural
  rw [htext]
  refine @Writes.bind _ _ _ ['0'] [] (writes_chars h.flat ['0']) fun o' h => ?_
  exact writes_mark rfl rfl ⟨h.flat.style, h.flat.depth, h.flat.owesNothing, h.flat.startsLine, h.flat.regexEnd⟩

theorem writes_arguments (ho : Flat o) {span : Span} {t : Tree}
    (hend : ∀ c ∈ o.comments, c.attachedTo ≠ some (span.stop - 1))
    (hstart : ∀ c ∈ o.comments, c.attachedTo ≠ some t.span.start)
    (h : ∀ o', After o ['('] o' → Writes (pr t .item) o' cs) :
    Writes (arguments pr span [t]) o ('(' :: (cs ++ [')'])) := by
  refine (writes_char ho '(').bind fun o' ho' => ?_
  rw [← ho'.comments] at hend hstart
  have hany : [t].anyM (fun t => hasComments t.span.start) = hasComments t.span.start := by
    funext o
    have hrun : hasComments t.span.start o = (o.comments.any fun c => c.attachedTo == some t.span.start, o) := rfl
    simp only [List.anyM, bind, StateT.bind, hrun]
    cases o.comments.any fun c => c.attachedTo == some t.span.start <;> rfl
  rw [hany]
  refine writes_hasComments hend (writes_hasComments hstart ?_)
  simp only [Bool.or_self, Bool.false_eq_true, if_false]
  exact (h o' ho').bind fun _ h => writes_char h.flat ')'

variable {fuel : Nat} {w : String} {span calleeSpan listSpan bodySpan : Span} {t : Tree}

open Script.Parser (nameNode callNode arrowNode constantNode variableNode)

theorem writer_nameNode (h : place.sameLine = false) : writer (fuel + 1) (nameNode w span) place = word w := by
  obtain ⟨⟩ := place
  cases h
  rfl

theorem writer_stringNode {s : String} (h : place.sameLine = false) :
    writer (fuel + 1) (Plain.stringNode s span) place = string s false true := by
  obtain ⟨⟩ := place
  cases h
  rfl

theorem writer_callNode (h : place.sameLine = false) :
    writer (fuel + 1) (callNode w span calleeSpan t) place =
      call (writer fuel) false false span [nameNode w calleeSpan, .absent, t] place := by
  obtain ⟨⟩ := place
  cases h
  rfl

theorem writer_arrowNode (h : place.sameLine = false) :
    writer (fuel + 1) (arrowNode span listSpan bodySpan t) place =
      arrow (writer fuel) false true false [.absent, .node .parameters listSpan [], .absent,
        .node .functionBody bodySpan [.node .directives bodySpan [],
          .node .statements bodySpan [.node .expressionStatement bodySpan [t]]]] place := by
  obtain ⟨⟩ := place
  cases h
  rfl

theorem writer_hollowNode (h : place.sameLine = false) :
    writer (fuel + 1) (Plain.hollowNode span listSpan bodySpan) place =
      arrow (writer fuel) false true false [.absent, .node .parameters listSpan [], .absent,
        .node .functionBody bodySpan [.node .directives bodySpan [], .node .statements bodySpan []]] place := by
  obtain ⟨⟩ := place
  cases h
  rfl

/-- A call with one argument. -/
theorem writes_call (ho : Flat o) (hapart : Apart o) (hplace : Calm place)
    (hend : ∀ c ∈ o.comments, c.attachedTo ≠ some (span.stop - 1))
    (hstart : ∀ c ∈ o.comments, c.attachedTo ≠ some t.span.start)
    (h : ∀ o', After o (w.toList ++ ['(']) o' → Writes (writer (fuel + 1) t .item) o' cs) :
    Writes (writer (fuel + 2) (callNode w span calleeSpan t) place) o (w.toList ++ '(' :: (cs ++ [')'])) := by
  have hparts : ∀ o₁, After o [] o₁ → Writes
      (writer (fuel + 1) (nameNode w calleeSpan) (.under .postfixed) >>= fun _ =>
        when false (raw "?.") >>= fun _ => arguments (writer (fuel + 1)) span [t]) o₁
      (w.toList ++ '(' :: (cs ++ [')'])) := by
    intro o₁ h₁
    rw [writer_nameNode rfl]
    refine (writes_word h₁.flat (h₁.apart_nil hapart) w).bind fun o₂ h₂ => ?_
    refine Writes.silent (writes_nothing h₂.flat) fun o₃ h₃ => ?_
    have hbehind := (h₁.trans h₂).trans h₃
    rw [List.nil_append, List.append_nil] at hbehind
    refine writes_arguments h₃.flat (hbehind.comments ▸ hend) (hbehind.comments ▸ hstart) fun o' h' => ?_
    exact h o' (hbehind.trans h')
  have hloose : place.level.rank ≤ Precedence.comma.rank := hplace.loose
  have hnew : ¬Precedence.new.rank ≤ Precedence.comma.rank := by decide
  rw [writer_callNode hplace.ownLine]
  refine writes_get (writes_wrapped (by simp [hplace.called]; omega) ?_)
  refine Writes.silent (writes_nothing ho) fun o₁ h₁ => ?_
  dsimp only
  split
  · refine Writes.silent (writes_mark rfl rfl (flat_of_same h₁.flat rfl rfl rfl rfl rfl)) fun o₂ h₂ => ?_
    exact hparts o₂ (h₁.trans h₂)
  · refine Writes.silent ?_ fun o₂ h₂ => hparts o₂ (h₁.trans h₂)
    unfold when
    split
    · exact writes_mark rfl rfl (flat_of_same h₁.flat rfl rfl rfl rfl rfl)
    · exact writes_nothing h₁.flat

/-- The head of an arrow function without parameters, and its body. -/
theorem writes_arrow (ho : Flat o) (hplace : Calm place) {body : Tree} {bodyWriter : Print}
    (hbody : (match bodyExpression? body with
      | some e => do
        mark fun o => { o with arrowStart := some o.length }
        pr e { place with level := .comma, noCall := false }
      | none => nothing) = bodyWriter)
    (h : ∀ o', After o Plain.Expr.arrowText o' → Writes bodyWriter o' cs) :
    Writes (arrow pr false true false [.absent, .node .parameters listSpan [], .absent, body] place) o
      (Plain.Expr.arrowText ++ cs) := by
  have hloose : place.level.rank ≤ Precedence.comma.rank := hplace.loose
  have hassign : ¬Precedence.assign.rank ≤ Precedence.comma.rank := by decide
  refine writes_isCompact ho (writes_wrapped (by simp; omega) ?_)
  refine Writes.silent (writes_nothing ho) fun o₁ h₁ => ?_
  refine @Writes.bind _ _ _ ['(', ')'] _ ((writes_char h₁.flat '(').bind fun o₂ h₂ =>
    Writes.silent (writes_nothing h₂.flat) fun o₃ h₃ => writes_char h₃.flat ')') fun o₂ h₂ => ?_
  refine Writes.silent (writes_nothing h₂.flat) fun o₃ h₃ => ?_
  refine (writes_space h₃.flat).bind fun o₄ h₄ => (writes_raw h₄.flat "=>").bind fun o₅ h₅ => ?_
  refine (writes_space h₅.flat).bind fun o₆ h₆ => ?_
  have hhead := ((((h₁.trans h₂).trans h₃).trans h₄).trans h₅).trans h₆
  rw [← hbody] at h
  exact h o₆ hhead

theorem writes_void (ho : Flat o) (hapart : Apart o) (hplace : Calm place) (span zeroSpan : Span) :
    Writes (writer (fuel + 2) (.node (.unary .voidOf) span [.node (.number .zero) zeroSpan []]) place) o
      Plain.Expr.voidText := by
  have hwriter : writer (fuel + 2) (.node (.unary .voidOf) span [.node (.number .zero) zeroSpan []]) place =
      unary (writer (fuel + 1)) .voidOf (.node (.number .zero) zeroSpan []) place := by
    obtain ⟨⟩ := place
    cases hplace.ownLine
    rfl
  have hzero : writer (fuel + 1) (.node (.number .zero) zeroSpan []) { place with level := .exponentiation } =
      number .zero .exponentiation := by
    obtain ⟨⟩ := place
    cases hplace.ownLine
    rfl
  have hloose : place.level.rank ≤ Precedence.comma.rank := hplace.loose
  have hprefixed : ¬Precedence.prefixed.rank ≤ Precedence.comma.rank := by decide
  rw [hwriter]
  refine writes_wrapped (by simp; omega) ?_
  refine (writes_word ho hapart "void").bind fun o₁ h₁ => (writes_space h₁.flat).bind fun o₂ h₂ => ?_
  rw [hzero]
  exact writes_zero h₂.flat (h₂.apart_char (by decide)) _

theorem writes_template (ho : Flat o) (hplace : Calm place) {s : String}
    (hs : ∀ c ∈ s.toList, Plain.isOrdinary c = true) (span quasiSpan : Span) :
    Writes (writer (fuel + 1) (.node .template span [.node (.quasi s (some s)) quasiSpan []]) place) o
      ('\x60' :: (s.toList ++ ['\x60'])) := by
  have hwriter : writer (fuel + 1) (.node .template span [.node (.quasi s (some s)) quasiSpan []]) place =
      template (writer fuel) [.node (.quasi s (some s)) quasiSpan []] := by
    obtain ⟨⟩ := place
    cases hplace.ownLine
    rfl
  rw [hwriter]
  refine (writes_char ho '\x60').bind fun o₁ h₁ => ?_
  have hpieces : Writes (templatePieces (writer fuel) [.node (.quasi s (some s)) quasiSpan []]) o₁
      (escapeClosingTag s.toList ++ []) :=
    (writes_chars h₁.flat _).bind fun o₂ h₂ => writes_nothing h₂.flat
  rw [List.append_nil, escapeClosingTag_of_isOrdinary hs] at hpieces
  exact hpieces.bind fun o₂ h₂ => writes_char h₂.flat '\x60'

theorem height_pos (t : Tree) : 1 ≤ t.height := by
  obtain ⟨label, span, parts⟩ := t
  simp [Tree.height]

theorem height_callNode (w : String) (span calleeSpan : Span) (t : Tree) :
    2 ≤ (callNode w span calleeSpan t).height := by
  rw [callNode, Tree.height]
  exact Nat.succ_le_succ (Nat.le_trans (height_pos (nameNode w calleeSpan)) (Nat.le_max_left ..))

/-- **Writing an expression** gives its text. -/
theorem writes_expression {free : Nat → Prop} {e : Plain.Expr} (h : Plain.Depicts free e t)
    (hplain : (e.isCode || e.isLiteral) = true) (ho : Flat o) (hapart : Apart o) (hplace : Calm place)
    (hfree : ∀ p, free p → ∀ c ∈ o.comments, c.attachedTo ≠ some p) (hfuel : t.height ≤ fuel) :
    Writes (writer fuel t place) o e.text := by
  induction h generalizing o place fuel with
  | name n span =>
    obtain ⟨fuel, rfl⟩ := Nat.exists_eq_add_of_le' (Nat.le_trans (height_pos _) hfuel)
    rw [writer_nameNode hplace.ownLine]
    exact writes_word ho hapart n
  | @required request span argumentSpan calleeSpan hend hstart =>
    have hchars : ∀ c ∈ request.toList, Plain.isOrdinary c = true ∧ c ≠ '"' := by
      have hrequest : Plain.isRequest request = true := by simpa [Plain.Expr.isCode, Plain.Expr.isLiteral] using hplain
      exact fun c hc => Plain.isOrdinary_of_isRequestChar (List.all_eq_true.mp hrequest c hc)
    have htext : (Plain.Expr.required request).text =
        "require".toList ++ '(' :: (Plain.Expr.inQuotes request.toList ++ [')']) := rfl
    obtain ⟨fuel, rfl⟩ := Nat.exists_eq_add_of_le' (Nat.le_trans (height_callNode _ _ _ _) hfuel)
    rw [htext]
    refine writes_call ho hapart hplace (hfree _ hend) (hfree _ hstart) fun o' h' => ?_
    rw [writer_stringNode rfl]
    exact writes_string h'.flat hchars true
  | @call callee span calleeSpan e t hend hstart _ ih =>
    have hcode : (e.isCode || e.isLiteral) = true := by
      have hboth : Plain.isName callee = true ∧ e.isCode = true := by
        simpa [Plain.Expr.isCode, Plain.Expr.isLiteral] using hplain
      simp [hboth.2]
    obtain ⟨fuel, rfl⟩ := Nat.exists_eq_add_of_le' (Nat.le_trans (height_callNode _ _ _ _) hfuel)
    refine writes_call ho hapart hplace (hfree _ hend) (hfree _ hstart) fun o' h' => ?_
    refine ih hcode h'.flat (h'.apart (by decide)) calm_item (h'.comments ▸ hfree) ?_
    simp [callNode, Tree.height, Tree.heightOfAll] at hfuel
    omega
  | @arrow span listSpan bodySpan e t hbody ih =>
    have hcode : (e.isCode || e.isLiteral) = true := by
      have hcode : e.isCode = true := by simpa [Plain.Expr.isCode, Plain.Expr.isLiteral] using hplain
      simp [hcode]
    obtain ⟨fuel, rfl⟩ := Nat.exists_eq_add_of_le' (Nat.le_trans (height_pos _) hfuel)
    rw [writer_arrowNode hplace.ownLine]
    refine writes_arrow ho hplace rfl fun o' h' => ?_
    refine Writes.silent (writes_mark rfl rfl (flat_of_same h'.flat rfl rfl rfl rfl rfl)) fun o₁ h₁ => ?_
    have hbehind := h'.trans h₁
    rw [List.append_nil] at hbehind
    refine ih hcode h₁.flat (@After.apart _ _ "() =>".toList ' ' hbehind (by decide))
      ⟨hplace.ownLine, rfl, Nat.le_refl _⟩ (hbehind.comments ▸ hfree) ?_
    simp [arrowNode, Tree.height, Tree.heightOfAll] at hfuel
    omega
  | hollow span listSpan bodySpan =>
    obtain ⟨fuel, rfl⟩ := Nat.exists_eq_add_of_le' (Nat.le_trans (height_pos _) hfuel)
    rw [writer_hollowNode hplace.ownLine]
    have hwrites : Writes (arrow (writer fuel) false true false [.absent, .node .parameters listSpan [], .absent,
        .node .functionBody bodySpan [.node .directives bodySpan [], .node .statements bodySpan []]] place) o
        (Plain.Expr.arrowText ++ []) :=
      writes_arrow ho hplace rfl fun o' h' => writes_nothing h'.flat
    rwa [List.append_nil] at hwrites
  | nothing span zeroSpan =>
    obtain ⟨fuel, rfl⟩ := Nat.exists_eq_add_of_le' (Nat.le_trans (Nat.le_refl 2) hfuel)
    exact writes_void ho hapart hplace span zeroSpan
  | quoted s span =>
    have hchars : ∀ c ∈ s.toList, Plain.isOrdinary c = true ∧ c ≠ '"' := by
      simpa [Plain.Expr.isCode, Plain.Expr.isLiteral] using hplain
    obtain ⟨fuel, rfl⟩ := Nat.exists_eq_add_of_le' (Nat.le_trans (height_pos _) hfuel)
    rw [writer_stringNode hplace.ownLine]
    exact writes_string ho hchars true
  | template s span quasiSpan =>
    have hchars : ∀ c ∈ s.toList, (Plain.isOrdinary c = true ∧ c ≠ '\x60') ∧ c ≠ '$' := by
      simpa [Plain.Expr.isCode, Plain.Expr.isLiteral] using hplain
    obtain ⟨fuel, rfl⟩ := Nat.exists_eq_add_of_le' (Nat.le_trans (height_pos _) hfuel)
    exact writes_template ho hplace (fun c hc => (hchars c hc).1.1) span quasiSpan

/-! ## 3. Comments -/

variable {c : Comment} {l : Plain.Line}

theorem linesOf_of_isOrdinary {t : List Char} (h : ∀ c ∈ t, Plain.isOrdinary c = true) : linesOf t = [t] := by
  induction t with
  | nil => rfl
  | cons c t ih =>
    rw [List.forall_mem_cons] at h
    have hbreak : Lexer.isLineBreak c = false := Plain.not_lineBreak_of_isOrdinary h.1
    have hends : (c == '\n' || c == '\r' || c == '\u2028' || c == '\u2029') = false := hbreak
    rw [linesOf, hends, ih h.2]
    · rfl
    · rintro r rfl
      exact absurd h.1 (by decide)

/-- A comment on a line of its own is written as it stands. -/
theorem writes_comment (ho : Flat o) (hc : Plain.OwnLine c) : Writes (comment c) o c.text := by
  obtain ⟨l, hplain, hcomment, htext, hline⟩ := hc.line
  have hchars := Plain.Line.isOrdinary_of_isComment hcomment hplain
  have hescape := escapeClosingTag_of_isOrdinary hchars
  unfold comment
  rw [htext, hline]
  cases hnote : l.isNote with
  | true =>
    simp only [if_true, hescape]
    exact writes_chars ho l.text
  | false =>
    have hopened : "/*".toList.isPrefixOf l.text = true := by
      rw [Plain.Line.text_of_isComment hcomment hnote]
      rfl
    have hclosed : "/*".toList.isPrefixOf l.text.reverse = true := by
      rw [Plain.Line.text_of_isComment hcomment hnote]
      simp
    have hblank : l.text.dropWhile isBlank = l.text := by
      rw [Plain.Line.text_of_isComment hcomment hnote]
      rfl
    simp only [Bool.false_eq_true, if_false, linesOf_of_isOrdinary hchars, each, hopened, hclosed, hblank, hescape,
      if_true]
    exact writes_chars ho l.text

/-- Nothing has been written, or a line has just ended. -/
def AtLine (o : Output) : Prop := o.text = [] ∨ ∃ r, o.text = '\n' :: r

theorem AtLine.apart (h : AtLine o) : Apart o := by
  intro c hc
  rcases h with h | ⟨r, h⟩ <;> rw [h] at hc
  · cases hc
  · obtain rfl : '\n' = c := by simpa using hc
    decide

theorem After.atLine (h : After o [] o') (ho : AtLine o) : AtLine o' := by
  rw [AtLine, h.text]
  exact ho

/-- The text of comments, each on a line of its own. -/
def commentLines (cs : List Comment) : List Char := cs.flatMap fun c => c.text ++ ['\n']

theorem writes_each {α : Type} {f : α → Print} {g : α → List Char} {as : List α} (ho : Flat o)
    (h : ∀ a ∈ as, ∀ o, Flat o → Writes (f a) o (g a)) : Writes (each f as) o (as.flatMap g) := by
  induction as generalizing o with
  | nil => exact writes_nothing ho
  | cons a as ih =>
    rw [List.forall_mem_cons] at h
    exact (h.1 o ho).bind fun o' h' => ih h'.flat h.2

theorem commentLines_cons (c : Comment) (cs : List Comment) :
    commentLines (c :: cs) = c.text ++ (cs.flatMap (fun c => '\n' :: c.text) ++ ['\n']) := by
  induction cs generalizing c with
  | nil => simp [commentLines]
  | cons d cs ih =>
    have hd := ih d
    simp only [commentLines, List.flatMap_cons] at hd ⊢
    rw [hd]
    simp

theorem writes_statementComments (ho : Flat o) (hline : AtLine o) {cs : List Comment}
    (hcs : ∀ c ∈ cs, Plain.OwnLine c) : Writes (statementComments cs) o (commentLines cs) := by
  unfold statementComments
  cases cs with
  | nil => exact writes_nothing ho
  | cons first rest =>
    rw [commentLines_cons]
    rw [List.forall_mem_cons] at hcs
    obtain ⟨last, hlast, hmem⟩ : ∃ last, (first :: rest).getLast? = some last ∧ last ∈ first :: rest :=
      ⟨_, List.getLast?_eq_some_getLast (by simp), List.getLast_mem _⟩
    have hafter : last.newlineAfter = true := by
      rcases List.mem_cons.mp hmem with rfl | hmem
      · exact hcs.1.newlineAfter
      · exact (hcs.2 last hmem).newlineAfter
    simp only [hcs.1.newlineBefore, if_true]
    refine writes_get ?_
    -- a line starts with nothing before it, or behind a line break
    rcases hline with htext | ⟨r, htext⟩ <;> simp only [htext]
    on_goal 1 => refine Writes.silent (writes_nothing ho) fun o₁ h₁ => ?_
    on_goal 2 => refine Writes.silent (writes_indent ho) fun o₁ h₁ => ?_
    all_goals
      refine (writes_comment h₁.flat hcs.1).bind fun o₂ h₂ => Writes.bind ?_ fun o₃ h₃ => ?_
      · refine writes_each h₂.flat fun c hc o ho => ?_
        rw [(hcs.2 c hc).newlineBefore]
        refine (writes_char ho '\n').bind fun o₄ h₄ => ?_
        exact Writes.silent (writes_indent h₄.flat) fun o₅ h₅ => writes_comment h₅.flat (hcs.2 c hc)
      · simp only [hlast, hafter, Bool.or_true, if_true]
        exact writes_char h₃.flat '\n'

end

end PackageRefs.Script.Printer

namespace PackageRefs.Plain

open PackageRefs.Script PackageRefs.Text
open Script.Parser (constantNode variableNode)
open Script.Printer (Flat Writes After Apart AtLine writer commentLines writes_nothing)

/-! ## 4. Statements -/

section

variable {comments : List Comment} {o : Script.Output} {lines : List Line} {l : Line} {t : Tree} {fuel : Nat}
  {free : Nat → Prop} {p : Print}

theorem writes_import (ho : Flat o) (hline : AtLine o) {request : String} (hrequest : isRequest request = true)
    (sourceSpan : Span) (fuel : Nat) :
    Writes (Printer.importDeclaration (writer fuel) false none .absent (stringNode request sourceSpan) .absent) o
      ((Line.imported request).text ++ ['\n']) := by
  have hchars : ∀ c ∈ request.toList, isOrdinary c = true ∧ c ≠ '"' := fun c hc =>
    Plain.isOrdinary_of_isRequestChar (List.all_eq_true.mp hrequest c hc)
  have htext : (Line.imported request).text ++ ['\n'] =
      "import".toList ++ (' ' :: (Expr.inQuotes request.toList ++ [';', '\n'])) := by
    have hopened : Line.importText = "import".toList ++ [' '] := rfl
    simp only [Line.text, hopened, List.append_assoc, List.cons_append, List.nil_append]
  rw [htext]
  refine (Printer.writes_word ho hline.apart "import").bind fun o₁ h₁ => ?_
  refine Writes.silent (writes_nothing h₁.flat) fun o₂ h₂ => ?_
  refine Writes.silent (writes_nothing h₂.flat) fun o₃ h₃ => ?_
  refine (Printer.writes_space h₃.flat).bind fun o₄ h₄ => ?_
  exact (Printer.writes_string h₄.flat hchars false).bind fun o₅ h₅ => Printer.writes_endStatement h₅.flat

theorem writes_variable (ho : Flat o) (hapart : Apart o) {name : String} {value : Expr} (h : Depicts free value t)
    (hplain : (value.isCode || value.isLiteral) = true) (span nameSpan : Span)
    (hfree : ∀ p, free p → ∀ c ∈ o.comments, c.attachedTo ≠ some p) (hfuel : t.height ≤ fuel) :
    Writes (writer (fuel + 1) (variableNode name span nameSpan t) .free) o
      (name.toList ++ (Line.equalsText ++ value.text)) := by
  obtain ⟨fuel, rfl⟩ := Nat.exists_eq_add_of_le' (Nat.le_trans (Printer.height_pos t) hfuel)
  have hwriter : writer (fuel + 2) (variableNode name span nameSpan t) .free =
      Printer.declarator (writer (fuel + 1)) false (.node (.binding name) nameSpan []) t .free := rfl
  have hname : writer (fuel + 1) (.node (.binding name) nameSpan []) .free = Printer.word name := rfl
  have hpresent : t.isAbsent = false := h.not_absent
  rw [hwriter]
  unfold Printer.declarator
  simp only [hname, hpresent, Bool.false_eq_true, if_false]
  refine (Printer.writes_word ho hapart name).bind fun o₁ h₁ => ?_
  refine Writes.silent (writes_nothing h₁.flat) fun o₂ h₂ => ?_
  refine (Printer.writes_space h₂.flat).bind fun o₃ h₃ => (Printer.writes_char h₃.flat '=').bind fun o₄ h₄ => ?_
  refine (Printer.writes_space h₄.flat).bind fun o₅ h₅ => ?_
  have hbehind := (((h₁.trans h₂).trans h₃).trans h₄).trans h₅
  exact Printer.writes_expression h hplain h₅.flat (h₅.apart_char (by decide))
    ⟨rfl, rfl, Nat.le_refl _⟩ (hbehind.comments ▸ hfree) hfuel

theorem writes_constant (ho : Flat o) (hline : AtLine o) {name : String} {value : Expr} (h : Depicts free value t)
    (hplain : (value.isCode || value.isLiteral) = true) (variableSpan nameSpan : Span)
    (hfree : ∀ p, free p → ∀ c ∈ o.comments, c.attachedTo ≠ some p) (hfuel : t.height ≤ fuel) :
    Writes (do
      Printer.variableList (writer (fuel + 1)) .const false [variableNode name variableSpan nameSpan t] .free
      Printer.endStatement) o ((Line.bound name value).text ++ ['\n']) := by
  have htext : (Line.bound name value).text ++ ['\n'] =
      ("const".toList ++ ([' '] ++ (name.toList ++ (Line.equalsText ++ value.text)))) ++ [';', '\n'] := by
    have hopened : Line.constText = "const".toList ++ [' '] := rfl
    simp only [Line.text, hopened, List.append_assoc, List.cons_append, List.nil_append]
  rw [htext]
  refine Writes.bind ?_ fun o' h' => Printer.writes_endStatement h'.flat
  refine Writes.silent (Printer.writes_beforeName ho hline.apart) fun o₁ h₁ => ?_
  refine Writes.silent (writes_nothing h₁.flat) fun o₂ h₂ => ?_
  refine (Printer.writes_raw h₂.flat "const").bind fun o₃ h₃ => (Printer.writes_space h₃.flat).bind fun o₄ h₄ => ?_
  have hbehind := ((h₁.trans h₂).trans h₃).trans h₄
  refine writes_variable h₄.flat (hbehind.apart (by decide)) h hplain variableSpan nameSpan ?_ hfuel
  exact hbehind.comments ▸ hfree

theorem writes_run (ho : Flat o) (hline : AtLine o) {e : Expr} (h : Depicts free e t) (hcode : e.isCode = true)
    (hfree : ∀ p, free p → ∀ c ∈ o.comments, c.attachedTo ≠ some p) (hfuel : t.height ≤ fuel) :
    Writes (Printer.expressionStatement (writer fuel) t) o ((Line.run e).text ++ ['\n']) := by
  have htext : (Line.run e).text ++ ['\n'] = e.text ++ [';', '\n'] := by simp [Line.text]
  have hindent : Writes Printer.expressionIndent o [] := by
    refine Printer.writes_get ?_
    simp only [ho.depth, ho.startsLine]
    exact writes_nothing ho
  rw [htext]
  refine Writes.silent hindent fun o₁ h₁ => ?_
  refine Writes.silent (Printer.writes_mark rfl rfl (Printer.flat_of_same h₁.flat rfl rfl rfl rfl rfl))
    fun o₂ h₂ => ?_
  have hbehind := h₁.trans h₂
  refine Writes.bind ?_ fun o' h' => Printer.writes_endStatement h'.flat
  exact Printer.writes_expression h (by simp [hcode]) h₂.flat (hbehind.apart_nil hline.apart) Printer.calm_free
    (hbehind.comments ▸ hfree) hfuel

/-- The script so far, and the comments that are still to be written. -/
structure Sheet (comments : List Comment) (o : Script.Output) (lines : List Line) : Prop where
  flat : Flat o
  text : o.text = (scriptText lines).reverse
  plain : ∀ l ∈ lines, l.isPlain = true
  waiting : ∀ c ∈ o.comments, c ∈ comments

theorem scriptText_append (lines more : List Line) : scriptText (lines ++ more) = scriptText lines ++ scriptText more :=
  List.flatMap_append

theorem Sheet.atLine (h : Sheet comments o lines) : AtLine o := by
  rw [AtLine, h.text]
  rcases List.eq_nil_or_concat lines with rfl | ⟨front, l, rfl⟩
  · exact .inl rfl
  · refine .inr ⟨(scriptText front ++ l.text).reverse, ?_⟩
    rw [List.concat_eq_append, scriptText_append]
    simp [scriptText]

theorem Sheet.write {more : List Line} (h : Sheet comments o lines) (hmore : ∀ l ∈ more, l.isPlain = true)
    (hwrites : Writes p o (scriptText more)) : Sheet comments (p.run o).2 (lines ++ more) where
  flat := hwrites.flat
  text := by rw [hwrites.text, h.text, scriptText_append, List.reverse_append]
  plain l hl := (List.mem_append.mp hl).elim (h.plain l) (hmore l)
  waiting c hc := h.waiting c (hwrites.comments ▸ hc)

theorem exists_commentLines {cs : List Comment} (h : ∀ c ∈ cs, OwnLine c) :
    ∃ more : List Line, (∀ l ∈ more, l.isPlain = true ∧ l.isComment = true) ∧ scriptText more = commentLines cs := by
  induction cs with
  | nil => exact ⟨[], by simp, rfl⟩
  | cons c cs ih =>
    rw [List.forall_mem_cons] at h
    obtain ⟨more, hmore, htext⟩ := ih h.2
    obtain ⟨l, hplain, hcomment, hc, -⟩ := h.1.line
    refine ⟨l :: more, List.forall_mem_cons.mpr ⟨⟨hplain, hcomment⟩, hmore⟩, ?_⟩
    rw [commentLines, List.flatMap_cons, ← commentLines, ← htext, hc]
    rfl

/-- The comments at a place are lines of the script. -/
theorem Sheet.commentsAt (hown : ∀ c ∈ comments, OwnLine c) (h : Sheet comments o lines) (pos : Nat) :
    ∃ more : List Line, (∀ l ∈ more, l.isComment = true) ∧
      Sheet comments ((Printer.commentsAt pos).run o).2 (lines ++ more) := by
  let parts := o.comments.partition fun c => c.attachedTo == some pos
  have hrun : (Printer.commentsAt pos).run o =
      (Printer.statementComments parts.1).run { o with comments := parts.2 } := rfl
  have hmem : ∀ c, c ∈ parts.1 ∨ c ∈ parts.2 → c ∈ comments := by
    intro c hc
    refine h.waiting c ?_
    simp only [parts, List.partition_eq_filter_filter, List.mem_filter] at hc
    exact hc.elim And.left And.left
  obtain ⟨more, hmore, htext⟩ := exists_commentLines fun c hc => hown c (hmem c (.inl hc))
  have hsheet : Sheet comments { o with comments := parts.2 } lines :=
    ⟨Printer.flat_of_same h.flat rfl rfl rfl rfl rfl, h.text, h.plain, fun c hc => hmem c (.inr hc)⟩
  refine ⟨more, fun l hl => (hmore l hl).2, ?_⟩
  rw [hrun]
  refine hsheet.write (fun l hl => (hmore l hl).1) ?_
  rw [htext]
  exact Printer.writes_statementComments hsheet.flat hsheet.atLine fun c hc => hown c (hmem c (.inl hc))

/-- A statement is written behind its comments. -/
theorem writes_statement (h : Shows free l t) (hplain : l.isPlain = true) (hfuel : t.height ≤ fuel) :
    ∃ line : Print, (∀ o, (writer fuel t .free).run o = line.run ((Printer.commentsAt t.span.start).run o).2) ∧
      ∀ o, Flat o → AtLine o → (∀ p, free p → ∀ c ∈ o.comments, c.attachedTo ≠ some p) →
        Writes line o (l.text ++ ['\n']) := by
  obtain ⟨fuel, rfl⟩ := Nat.exists_eq_add_of_le' (Nat.le_trans (Printer.height_pos t) hfuel)
  cases h with
  | imported request span sourceSpan =>
    refine ⟨do
      Printer.indent
      Printer.importDeclaration (writer fuel) false none .absent (stringNode request sourceSpan) .absent,
      fun o => rfl, fun o ho hline _ => ?_⟩
    refine Writes.silent (Printer.writes_indent ho) fun o₁ h₁ => ?_
    exact writes_import h₁.flat (h₁.atLine hline) hplain sourceSpan fuel
  | @bound name span variableSpan nameSpan value t h =>
    rw [Line.isPlain, Bool.and_eq_true] at hplain
    have hheight : t.height + 2 ≤ fuel + 1 := by
      simp [constantNode, variableNode, Script.Tree.height, Tree.heightOfAll] at hfuel
      omega
    obtain ⟨fuel, rfl⟩ := Nat.exists_eq_add_of_le' (Nat.le_trans (Printer.height_pos t) (by omega : t.height ≤ fuel))
    refine ⟨do
      Printer.indent
      Printer.variableList (writer (fuel + 1)) .const false [variableNode name variableSpan nameSpan t] .free
      Printer.endStatement,
      fun o => rfl, fun o ho hline hfree => ?_⟩
    refine Writes.silent (Printer.writes_indent ho) fun o₁ h₁ => ?_
    refine writes_constant h₁.flat (h₁.atLine hline) h hplain.2 variableSpan nameSpan (h₁.comments ▸ hfree) ?_
    omega
  | @run span e t h =>
    refine ⟨Printer.expressionStatement (writer fuel) t, fun o => rfl, fun o ho hline hfree => ?_⟩
    refine writes_run ho hline h hplain hfree ?_
    simp [Script.Tree.height, Tree.heightOfAll] at hfuel
    omega

/-- **A statement** is a line of the script, behind the comments that lead it. -/
theorem Sheet.statement (hown : ∀ c ∈ comments, OwnLine c) (h : Sheet comments o lines) (hshows : Shows free l t)
    (hplain : l.isPlain = true) (hfree : ∀ p, free p → ∀ c ∈ comments, c.attachedTo ≠ some p)
    (hfuel : t.height ≤ fuel) : ∃ more : List Line, (∀ l ∈ more, l.isComment = true) ∧
      Sheet comments ((writer fuel t .free).run o).2 (lines ++ (more ++ [l])) := by
  obtain ⟨line, hrun, hwrites⟩ := writes_statement hshows hplain hfuel
  obtain ⟨more, hmore, hsheet⟩ := h.commentsAt hown t.span.start
  have htext : scriptText [l] = l.text ++ ['\n'] := by simp [scriptText]
  refine ⟨more, hmore, ?_⟩
  rw [hrun, ← List.append_assoc]
  refine hsheet.write (List.forall_mem_singleton.mpr hplain) ?_
  rw [htext]
  exact hwrites _ hsheet.flat hsheet.atLine fun p hp c hc => hfree p hp c (hsheet.waiting c hc)

/-! ## 5. Whole scripts -/

variable {ts : List Tree} {ls : List Line}

theorem statements_append (lines more : List Line) : statements (lines ++ more) = statements lines ++ statements more :=
  List.filter_append ..

theorem statements_of_comments {more : List Line} (h : ∀ l ∈ more, l.isComment = true) : statements more = [] :=
  List.filter_eq_nil_iff.mpr fun l hl => by simp [h l hl]

theorem Shows.isComment (h : Shows free l t) : l.isComment = false := by cases h <;> rfl

/-- Statements after the first, each behind its comments. -/
theorem Sheet.others (hown : ∀ c ∈ comments, OwnLine c) (h : Sheet comments o lines)
    (hshows : List.Forall₂ (Shows free) ls ts) (hplain : ∀ l ∈ ls, l.isPlain = true)
    (hfree : ∀ p, free p → ∀ c ∈ comments, c.attachedTo ≠ some p) (hfuel : ∀ t ∈ ts, t.height ≤ fuel) :
    ∃ lines', statements lines' = statements lines ++ ls ∧
      Sheet comments ((Printer.statements (writer fuel) ts).run o).2 lines' := by
  induction hshows generalizing o lines with
  | nil => exact ⟨lines, by simp, h⟩
  | @cons l t ls ts hfirst _ ih =>
    rw [List.forall_mem_cons] at hplain hfuel
    have hsettle : Sheet comments (Printer.settleSemicolon.run o).2 (lines ++ []) :=
      h.write (by simp) (Printer.writes_settleSemicolon h.flat)
    rw [List.append_nil] at hsettle
    obtain ⟨more, hmore, hsheet⟩ := hsettle.statement hown hfirst hplain.1 hfree hfuel.1
    obtain ⟨lines', hstatements, hsheet⟩ := ih hsheet hplain.2 hfuel.2
    refine ⟨lines', ?_, hsheet⟩
    have hsingle : statements [l] = [l] := by simp [statements, hfirst.isComment]
    rw [hstatements, statements_append, statements_append, statements_of_comments hmore, hsingle,
      List.nil_append, List.append_assoc]
    rfl

theorem stringStatement?_of_shows (h : Shows free l t) (hplain : l.isPlain = true) :
    Printer.stringStatement? t = none := by
  cases h with
  | run span h => cases h <;> first | rfl | cases hplain
  | _ => rfl

/-- All statements. -/
theorem Sheet.all (hown : ∀ c ∈ comments, OwnLine c) (h : Sheet comments o lines)
    (hshows : List.Forall₂ (Shows free) ls ts) (hplain : ∀ l ∈ ls, l.isPlain = true)
    (hfree : ∀ p, free p → ∀ c ∈ comments, c.attachedTo ≠ some p) (hfuel : ∀ t ∈ ts, t.height ≤ fuel)
    (directivesSpan statementsSpan : Span) :
    ∃ lines', statements lines' = statements lines ++ ls ∧
      Sheet comments ((Printer.directivesAndStatements (writer fuel) (.node .directives directivesSpan [])
        (.node .statements statementsSpan ts)).run o).2 lines' := by
  cases hshows with
  | nil => exact ⟨lines, by simp, h⟩
  | @cons l t ls ts hfirst hothers =>
    rw [List.forall_mem_cons] at hplain hfuel
    have hrun : (Printer.directivesAndStatements (writer fuel) (.node .directives directivesSpan [])
        (.node .statements statementsSpan (t :: ts))).run o =
          (Printer.statements (writer fuel) ts).run ((writer fuel t .free).run o).2 := by
      unfold Printer.directivesAndStatements
      simp only [Tree.parts, stringStatement?_of_shows hfirst hplain.1]
      rfl
    obtain ⟨more, hmore, hsheet⟩ := h.statement hown hfirst hplain.1 hfree hfuel.1
    obtain ⟨lines', hstatements, hsheet⟩ := hsheet.others hown hothers hplain.2 hfree hfuel.2
    refine ⟨lines', ?_, hrun ▸ hsheet⟩
    have hsingle : statements [l] = [l] := by simp [statements, hfirst.isComment]
    rw [hstatements, statements_append, statements_append, statements_of_comments hmore, hsingle,
      List.nil_append, List.append_assoc]
    rfl

theorem height_le_of_mem (h : t ∈ ts) : t.height ≤ Tree.heightOfAll ts := by
  induction ts with
  | nil => cases h
  | cons u ts ih =>
    rw [Tree.heightOfAll]
    rcases List.mem_cons.mp h with rfl | h
    · exact Nat.le_max_left ..
    · exact Nat.le_trans (ih h) (Nat.le_max_right ..)

/-- **A plain script is printed as a plain script** with the same statements. -/
theorem Displays.print (h : Displays lines comments t) (hplain : ∀ l ∈ lines, l.isPlain = true) (dialect : Dialect) :
    ∃ lines', (∀ l ∈ lines', l.isPlain = true) ∧ statements lines' = statements lines ∧
      Script.print .spacious dialect comments t = String.ofList (scriptText lines') := by
  obtain ⟨hown, ts, ⟨span, directivesSpan, statementsSpan, rfl⟩, hshows⟩ := h
  let kept := comments.filter fun c =>
    Style.spacious == .spacious && !(c.content == .harmlessCall || c.content == .harmlessFunction)
  let start : Script.Output := { style := .spacious, markup := dialect.jsx, comments := kept }
  have hstart : Sheet comments start [] :=
    ⟨⟨rfl, rfl, rfl, rfl, rfl⟩, rfl, by simp, fun c hc => (List.mem_filter.mp hc).1⟩
  let program := Script.Tree.node (.program none) span
    [.node .directives directivesSpan [], .node .statements statementsSpan ts]
  have hfuel : ∀ t ∈ ts, t.height ≤ program.height + 1 := by
    intro t ht
    have hle := height_le_of_mem ht
    simp [program, Script.Tree.height, Tree.heightOfAll]
    omega
  obtain ⟨more, hmore, hsheet⟩ := hstart.commentsAt hown 0
  obtain ⟨lines', hstatements, hsheet⟩ := hsheet.all hown hshows (fun l hl => hplain l (mem_statements hl).1)
    (fun p hp => hp) hfuel directivesSpan statementsSpan
  have hsettle := hsheet.write (by simp : ∀ l ∈ ([] : List Line), l.isPlain = true) (Printer.writes_settleSemicolon hsheet.flat)
  obtain ⟨last, hlast, hsheet⟩ := hsettle.commentsAt hown span.stop
  refine ⟨_, hsheet.plain, ?_, ?_⟩
  · simp [statements_append, statements_of_comments hlast, hstatements, statements_of_comments hmore]
  · rw [← List.reverse_reverse (scriptText _), ← hsheet.text]
    rfl

/-- **The printed text of a plain script can be read** exactly if no arrow function in the tree is hollow. -/
theorem Displays.readable_iff (h : Displays lines comments t) (hplain : ∀ l ∈ lines, l.isPlain = true)
    (dialect : Dialect) : (parse dialect (Script.print .spacious dialect comments t)).succeeded = true ↔
      t.anyNode Tree.isHollow = false := by
  obtain ⟨lines', hplain', hstatements, hprint⟩ := h.print hplain dialect
  have hsame : lines'.any Line.isHollow = lines.any Line.isHollow := by
    rw [← any_isHollow_statements, hstatements, any_isHollow_statements]
  rw [hprint, (parse_script dialect hplain').1, h.anyHollow, ← hsame, List.any_eq_false]
  simp

end

end PackageRefs.Plain
