/-
# The scan for calls of `require` misses nothing and invents nothing

The scan reads a text once, from left to right.  Behind a call it goes on with what stands behind it, so a
call that starts inside another one is passed over.  The scan knows of no strings and no comments, and a stray
quote may well open a call that swallows the start of the next one.

* `requireFinder_eq_some_iff` says what a call is: `IsCall` spells it out.
* `exists_suffix_of_overlap`: a call that starts inside another one starts inside its string, and the quote
  that closes this string opens the other.
* `rejected_of_overlap`: so the other string starts with the parenthesis that closes the first call, maybe
  behind white space, and a string with a parenthesis is no reference.

**The result** (`requires_enumerated`): the scan reports the strings of all calls anywhere in a text that can
be references, in the order of their places, and nothing else.
-/
import PackageRefs.Proofs.Reference.Scan
import PackageRefs.Proofs.Text.Hidden

namespace PackageRefs

open PackageRefs.Text

/-! ## 1. Calls -/

/-- The text is a call of `require` with one string: the word, an opening parenthesis, a quote, the string, a
quote, and a closing parenthesis, with white space before and behind the parentheses as one likes.  The two
quotes are single or double each, and the string is not empty and holds no quotes and no line feeds. -/
inductive IsCall : List Char → List Char → Prop
  | intro {a b c request : List Char} {q d : Char}
      (blank_before : ∀ x ∈ a, isBlank x = true) (blank_behind : ∀ x ∈ b, isBlank x = true)
      (opening : isQuote q = true) (nonempty : request ≠ [])
      (unquoted : ∀ x ∈ request, isUnquoted x = true) (closing : isQuote d = true)
      (blank_last : ∀ x ∈ c, isBlank x = true) :
      IsCall ("require".toList ++ (a ++ '(' :: (b ++ q :: (request ++ d :: (c ++ [')']))))) request

/-- A call with the string stands at the place, and its first letter starts a word. -/
def CallAt (text : List Char) (place : Nat) (request : List Char) : Prop :=
  ∃ pre call rest, text = pre ++ (call ++ rest) ∧ pre.length = place ∧
    startsWord pre.getLast? = true ∧ IsCall call request

theorem isQuote_of_isBlank {c : Char} (h : isBlank c = true) : isQuote c = false := by
  cases hquote : isQuote c with
  | false => rfl
  | true =>
    rw [isQuote, Bool.or_eq_true, beq_iff_eq, beq_iff_eq] at hquote
    rcases hquote with rfl | rfl <;> exact absurd h (by decide)

theorem isBlank_of_isQuote {c : Char} (h : isQuote c = true) : isBlank c = false := by
  cases hblank : isBlank c with
  | false => rfl
  | true =>
    rw [isQuote_of_isBlank hblank] at h
    cases h

/-- **What the scan finds** at a place is a call. -/
theorem requireFinder_eq_some_iff {before : Option Char} {text request : List Char} {n : Nat} :
    requireFinder before text = some (request, n) ↔
      startsWord before = true ∧ ∃ call rest, text = call ++ rest ∧ n = call.length ∧ IsCall call request := by
  constructor
  · intro h
    unfold requireFinder at h
    split at h
    · rename_i hstarts
      simp only [Option.bind_eq_bind, Option.bind_eq_some_iff, Option.pure_def, Option.some.injEq] at h
      obtain ⟨argument, hargument, ⟨source, behind⟩, hquoted, rest, hclose, hup⟩ := h
      obtain ⟨a, r, rfl, ha, hr⟩ := requireArgument?_eq_some_iff.mp hargument
      obtain ⟨q, d, rfl, hq, hd, hne, hsource⟩ := quotedText?_eq_some_iff.mp hquoted
      obtain ⟨b, rfl, hb, -⟩ := afterBlanks_eq_cons_iff.mp hr
      have hclose : afterBlanks behind = ')' :: rest := after?_eq_some_iff.mp hclose
      obtain ⟨c, rfl, hc, -⟩ := afterBlanks_eq_cons_iff.mp hclose
      obtain ⟨rfl, rfl⟩ := Prod.mk.inj hup
      refine ⟨hstarts, _, rest, ?_, ?_, .intro ha hb hq hne hsource hd hc⟩
      · simp
      · simp only [List.length_append, List.length_cons, List.length_nil]
        omega
    · cases h
  · rintro ⟨hstarts, call, rest, rfl, rfl, hcall⟩
    cases hcall with
    | @intro a b c _ q d ha hb hq hne hrequest hd hc =>
      have hargument : requireArgument? ("require".toList ++
          (a ++ '(' :: (b ++ q :: (request ++ d :: (c ++ [')'])))) ++ rest) =
            some (q :: (request ++ d :: (c ++ ')' :: rest))) := by
        refine requireArgument?_eq_some_iff.mpr
          ⟨a, b ++ q :: (request ++ d :: (c ++ ')' :: rest)), by simp, ha, ?_⟩
        exact afterBlanks_eq_cons_iff.mpr ⟨b, rfl, hb, isBlank_of_isQuote hq⟩
      have hquoted : quotedText? (q :: (request ++ d :: (c ++ ')' :: rest))) =
          some (request, c ++ ')' :: rest) :=
        quotedText?_eq_some_iff.mpr ⟨q, d, rfl, hq, hd, hne, hrequest⟩
      have hclose : after? ")" (afterBlanks (c ++ ')' :: rest)) = some rest :=
        after?_eq_some_iff.mpr (afterBlanks_eq_cons_iff.mpr ⟨c, rfl, hc, by decide⟩)
      unfold requireFinder
      rw [if_pos hstarts, hargument]
      simp only [Option.bind_eq_bind, Option.bind_some, hquoted, hclose, Option.pure_def, upTo,
        List.length_append, Nat.add_sub_cancel]

theorem requireFinder_advances : Finder.Advances requireFinder := by
  intro before text request n h
  obtain ⟨-, call, rest, rfl, rfl, hcall⟩ := requireFinder_eq_some_iff.mp h
  cases hcall with
  | intro => simp

theorem foundAt_requireFinder_iff {text request : List Char} {place : Nat} :
    FoundAt requireFinder none text place request ↔ CallAt text place request := by
  constructor
  · rintro ⟨pre, behind, n, rfl, hplace, hfind⟩
    rw [Option.or_none] at hfind
    obtain ⟨hstarts, call, rest, rfl, -, hcall⟩ := requireFinder_eq_some_iff.mp hfind
    exact ⟨pre, call, rest, rfl, hplace, hstarts, hcall⟩
  · rintro ⟨pre, call, rest, rfl, hplace, hstarts, hcall⟩
    refine ⟨pre, call ++ rest, call.length, rfl, hplace, ?_⟩
    rw [Option.or_none]
    exact requireFinder_eq_some_iff.mpr ⟨hstarts, call, rest, rfl, rfl, hcall⟩

/-! ## 2. Calls that overlap -/

/-- What is none of the characters in question stands before the first one that is. -/
theorem exists_append_of_free {p : Char → Prop} {x y u w : List Char} {d : Char} (hx : ∀ c ∈ x, ¬p c)
    (hd : p d) (h : u ++ d :: w = x ++ y) : ∃ z, u = x ++ z ∧ z ++ d :: w = y := by
  rcases List.append_eq_append_iff.mp h with ⟨m, rfl, hw⟩ | ⟨m, rfl, hy⟩
  · cases m with
    | nil => exact ⟨[], by simp, hw⟩
    | cons e m =>
      obtain ⟨rfl, -⟩ := List.cons.inj hw
      exact absurd hd (hx d (by simp))
  · exact ⟨m, rfl, hy.symm⟩

/-- A text divides at the first of the characters in question in one way. -/
theorem eq_of_first {p : Char → Prop} {x y u w : List Char} {c d : Char} (hx : ∀ e ∈ x, ¬p e)
    (hu : ∀ e ∈ u, ¬p e) (hc : p c) (hd : p d) (h : u ++ d :: w = x ++ c :: y) : u = x ∧ w = y := by
  obtain ⟨z, rfl, hz⟩ := exists_append_of_free hx hd h
  cases z with
  | nil => exact ⟨List.append_nil x, (List.cons.inj hz).2⟩
  | cons e z =>
    obtain ⟨rfl, -⟩ := List.cons.inj hz
    exact absurd hc (hu e (by simp))

theorem ne_r_of_isBlank {c : Char} (h : isBlank c = true) : c ≠ 'r' := by
  rintro rfl
  exact absurd h (by decide)

theorem ne_r_of_isQuote {c : Char} (h : isQuote c = true) : c ≠ 'r' := by
  rintro rfl
  exact absurd h (by decide)

theorem IsCall.unquoted {call request : List Char} (h : IsCall call request) :
    ∀ x ∈ request, ¬isQuote x = true := by
  cases h with
  | intro _ _ _ _ hrequest =>
    intro x hx hquote
    have hplain := hrequest x hx
    rw [isUnquoted_of_isQuote hquote] at hplain
    cases hplain

theorem toList_require : "require".toList = ['r', 'e', 'q', 'u', 'i', 'r', 'e'] := rfl

/-- **A call that starts inside another one** starts inside its string: outside of it there is no `r` in a
call but the two in `require`, and behind the second of them the word does not go on. -/
theorem exists_suffix_of_overlap {u v request rest r : List Char} (h : IsCall (u ++ v) request)
    (hu : u ≠ []) (hv : v ≠ []) (hword : v ++ rest = 'r' :: 'e' :: 'q' :: r) :
    ∃ m d c, m <:+ request ∧ v = m ++ d :: (c ++ [')']) ∧ isQuote d = true ∧ ∀ x ∈ c, isBlank x = true := by
  generalize hcall : u ++ v = call at h
  cases h with
  | @intro a b c _ q d ha hb hq hne hrequest hd hc =>
    obtain ⟨x, v, rfl⟩ := List.exists_cons_of_ne_nil hv
    obtain ⟨rfl, hsecond⟩ := List.cons.inj hword
    obtain ⟨x, u, rfl⟩ := List.exists_cons_of_ne_nil hu
    have hcall : u ++ 'r' :: v = ['e', 'q', 'u', 'i'] ++
        ('r' :: 'e' :: (a ++ '(' :: (b ++ q :: (request ++ d :: (c ++ [')']))))) := (List.cons.inj hcall).2
    have hfree : ∀ x ∈ ['e', 'q', 'u', 'i'], ¬x = 'r' := by simp
    obtain ⟨z, rfl, hz⟩ := exists_append_of_free hfree rfl hcall
    cases z with
    | nil =>
      -- the second `r` of the word: behind the `e` there is white space or a parenthesis, and no `q`
      obtain ⟨-, rfl⟩ := List.cons.inj hz
      have hthird := (List.cons.inj hsecond).2
      cases a with
      | nil => cases hthird
      | cons y a =>
        obtain ⟨rfl, -⟩ := List.cons.inj hthird
        exact absurd (ha _ List.mem_cons_self) (by decide)
    | cons y z =>
      have hfront : ∀ x ∈ 'e' :: (a ++ '(' :: (b ++ [q])), ¬x = 'r' := by
        simp only [List.mem_cons, List.mem_append, List.not_mem_nil, or_false]
        rintro x (rfl | hx | rfl | hx | rfl)
        · decide
        · exact ne_r_of_isBlank (ha x hx)
        · decide
        · exact ne_r_of_isBlank (hb x hx)
        · exact ne_r_of_isQuote hq
      have hback : ∀ x ∈ d :: (c ++ [')']), ¬x = 'r' := by
        simp only [List.mem_cons, List.mem_append, List.not_mem_nil, or_false]
        rintro x (rfl | hx | rfl)
        · exact ne_r_of_isQuote hd
        · exact ne_r_of_isBlank (hc x hx)
        · decide
      have hz : z ++ 'r' :: v = ('e' :: (a ++ '(' :: (b ++ [q]))) ++ (request ++ d :: (c ++ [')'])) := by
        simpa using (List.cons.inj hz).2
      obtain ⟨w, rfl, hw⟩ := exists_append_of_free hfront rfl hz
      rcases List.append_eq_append_iff.mp hw with ⟨m, rfl, hm⟩ | ⟨m, rfl, hm⟩
      · exact ⟨m, d, c, List.suffix_append w m, hm, hd, hc⟩
      · exact absurd rfl (hback 'r' (hm ▸ by simp))

theorem isReferenceText_of_code {text : List Char} (h : text.any isCodeChar = true) :
    isReferenceText text = false := by
  simp only [isReferenceText, h, Bool.not_true, Bool.and_false, Bool.false_and]

/-- **What starts inside a call is no reference**: its string starts with the parenthesis that closes the
call. -/
theorem rejected_of_overlap {u v request rest call' request' rest' : List Char} (h : IsCall (u ++ v) request)
    (hu : u ≠ []) (hv : v ≠ []) (h' : IsCall call' request') (heq : v ++ rest = call' ++ rest') :
    isReferenceText request' = false := by
  cases h' with
  | @intro a b c' _ q d' ha hb hq hne hrequest hd' hc' =>
    rw [toList_require] at heq
    obtain ⟨m, d, c, hm, rfl, hd, hc⟩ := exists_suffix_of_overlap h hu hv heq
    have hplain : ∀ x ∈ m, ¬isQuote x = true := fun x hx => h.unquoted x (hm.subset hx)
    have hword : ∀ x ∈ ['r', 'e', 'q', 'u', 'i', 'r', 'e'] ++ (a ++ '(' :: b), ¬isQuote x = true := by
      intro x hx
      rcases List.mem_append.mp hx with hx | hx
      · exact (by simp [isQuote] : ∀ x ∈ ['r', 'e', 'q', 'u', 'i', 'r', 'e'], ¬isQuote x = true) x hx
      · rcases List.mem_append.mp hx with hx | hx
        · simp [isQuote_of_isBlank (ha x hx)]
        · rcases List.mem_cons.mp hx with rfl | hx
          · decide
          · simp [isQuote_of_isBlank (hb x hx)]
    -- the first quote from here on closes the one call and opens the other
    have hsame : m ++ d :: (c ++ ')' :: rest) = (['r', 'e', 'q', 'u', 'i', 'r', 'e'] ++ (a ++ '(' :: b)) ++
        q :: (request' ++ d' :: (c' ++ ')' :: rest')) := by
      simpa using heq
    obtain ⟨-, hbehind⟩ := eq_of_first hword hplain hq hd hsame
    have hclosing : ∀ x ∈ c ++ [')'], ¬isQuote x = true := by
      intro x hx
      rcases List.mem_append.mp hx with hx | hx
      · simp [isQuote_of_isBlank (hc x hx)]
      · obtain rfl := List.mem_singleton.mp hx
        decide
    have hstring : request' ++ d' :: (c' ++ ')' :: rest') = (c ++ [')']) ++ rest := by
      simpa using hbehind.symm
    obtain ⟨z, rfl, -⟩ := exists_append_of_free hclosing hd' hstring
    exact isReferenceText_of_code (List.any_eq_true.mpr ⟨')', by simp, by decide⟩)

theorem requireFinder_exposes : Finder.Exposes requireFinder isReferenceText := by
  intro before u v rest request request' n hu hv hfind hfind'
  obtain ⟨-, call, rest₁, htext, hlength, hcall⟩ := requireFinder_eq_some_iff.mp hfind
  obtain ⟨-, call', rest₂, htext', -, hcall'⟩ := requireFinder_eq_some_iff.mp hfind'
  obtain ⟨rfl, -⟩ := List.append_inj htext hlength
  exact rejected_of_overlap hcall hu hv hcall' htext'

/-! ## 3. What the scan reports -/

theorem filter_scanReferences (source : String) :
    (scanReferences source).filter (·.kind = .require) = (scan requireFinder source).map (⟨.require, ·⟩) := by
  have himports : ((scan importFinder source).map fun request => Reference.mk .import request).filter
      (·.kind = .require) = [] := List.filter_eq_nil_iff.mpr (by simp)
  have hcalls : ((scan requireFinder source).map fun request => Reference.mk .require request).filter
      (·.kind = .require) = (scan requireFinder source).map (⟨.require, ·⟩) :=
    List.filter_eq_self.mpr (by simp)
  rw [scanReferences, List.filter_append, himports, hcalls, List.nil_append]

/-- **The scan for calls** reports the strings of all calls in a text that can be references, one for each
place at which there is one, in the order of the places, and nothing else. -/
theorem requires_enumerated (source : String) :
    ∃ found : List (Nat × String), (found.map Prod.fst).Pairwise (· < ·) ∧
      (∀ place request, (place, request) ∈ found ↔
        CallAt source.toList place request.toList ∧ isReference request = true) ∧
      (scanReferences source).filter (·.kind = .require) = found.map fun f => ⟨.require, f.2⟩ := by
  obtain ⟨found, henumerates, hvalues⟩ :=
    exists_enumerates requireFinder_advances requireFinder_exposes source.toList
  refine ⟨found.map fun f => (f.1, String.ofList f.2), ?_, fun place request => ?_, ?_⟩
  · simpa [Function.comp_def] using henumerates.ordered
  · have hmem : (place, request) ∈ found.map (fun f => (f.1, String.ofList f.2)) ↔
        (place, request.toList) ∈ found := by
      constructor
      · intro h
        obtain ⟨f, hf, heq⟩ := List.mem_map.mp h
        obtain ⟨rfl, rfl⟩ := Prod.mk.inj heq
        rwa [String.toList_ofList]
      · intro h
        exact List.mem_map.mpr ⟨_, h, by rw [String.ofList_toList]⟩
    rw [hmem, henumerates.mem_iff, foundAt_requireFinder_iff]
    rfl
  · rw [filter_scanReferences, scan, hvalues]
    simp [Function.comp_def]

/-- The first call swallows the second, which opens with the quote that closes it; neither is a reference. -/
example : (scanReferences "require(\"require(\")x\");require('y-lib')").map (·.request) = ["y-lib"] := by
  decide +kernel

end PackageRefs
