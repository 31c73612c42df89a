/-
# Infinities are written by name, all of them and nothing else

`restoreInfinity` goes from the leaves to the root and judges an expression by its parts as they stand then.
Here the same is said of the tree as it was before.

* `Infinite` says which expressions have an infinite value that can be read off them: a literal, or a
  quotient of two numbers, each a literal under any number of minus signs.
* `MetInfinite` says which of them still are infinite when they are met: no number of the quotient is infinite
  itself, as it would have its name by then (`infiniteValue?_restored`).
* `Reached` says which nodes a way leads to: none behind a node at which it stops.

**The result** (`restoreInfinity_account`): each expression that is infinite when it is met has become its
name, every other node that is met is as it was but for its parts, no expression with an infinite value is
left, and so nothing is left to do for a second time.

A number that is a type of its own is no expression; a way to an expression does not pass through it.
-/
import PackageRefs.Proofs.Script.Tree
import PackageRefs.Script.Infinity

namespace PackageRefs.Script.Tree

open PackageRefs.Number (Binary64)

/-! ## 1. Expressions with an infinite value -/

/-- The expression is a number literal under any number of minus signs, and this is its value. -/
inductive Signed : Tree → Binary64 → Prop
  | number (x : Binary64) (span : Span) (parts : List Tree) : Signed (node (.number x) span parts) x
  | minus {e : Tree} {x : Binary64} (span : Span) (signed : Signed e x) :
      Signed (node (.unary .minus) span [e]) x.neg

/-- The expression is an infinite literal, or a quotient of two numbers that is infinite. -/
inductive Infinite : Tree → Binary64 → Prop
  | literal {x : Binary64} (span : Span) (parts : List Tree) (infinite : x.isInfinite = true) :
      Infinite (node (.number x) span parts) x
  | quotient {left right : Tree} {x y : Binary64} (span : Span) (dividend : Signed left x)
      (divisor : Signed right y) (infinite : (x.div y).isInfinite = true) :
      Infinite (node (.binary .div) span [left, right]) (x.div y)

/-- The expression is infinite, and if it is a quotient the two numbers are not. -/
inductive MetInfinite : Tree → Binary64 → Prop
  | literal {x : Binary64} (span : Span) (parts : List Tree) (infinite : x.isInfinite = true) :
      MetInfinite (node (.number x) span parts) x
  | quotient {left right : Tree} {x y : Binary64} (span : Span) (dividend : Signed left x)
      (divisor : Signed right y) (finite_dividend : x.isInfinite = false)
      (finite_divisor : y.isInfinite = false) (infinite : (x.div y).isInfinite = true) :
      MetInfinite (node (.binary .div) span [left, right]) (x.div y)

theorem signedNumber?_eq_some_iff {t : Tree} {x : Binary64} : t.signedNumber? = some x ↔ Signed t x := by
  constructor
  · intro h
    fun_induction signedNumber? t generalizing x with
    | case1 y span parts =>
      cases h
      exact .number y span parts
    | case2 span e ih =>
      obtain ⟨y, hy, rfl⟩ := Option.map_eq_some_iff.mp h
      exact .minus span (ih hy)
    | case3 => cases h
  · intro h
    induction h with
    | number => rfl
    | minus span signed ih => simp only [signedNumber?, ih, Option.map_some]

theorem infiniteValue?_eq_some_iff {t : Tree} {z : Binary64} : t.infiniteValue? = some z ↔ Infinite t z := by
  constructor
  · intro h
    unfold infiniteValue? at h
    split at h
    · rename_i x span parts
      split at h
      · rename_i hinfinite
        cases h
        exact .literal span parts hinfinite
      · cases h
    · rename_i span left right
      split at h
      · rename_i x y hleft hright
        split at h
        · rename_i hinfinite
          cases h
          exact .quotient span (signedNumber?_eq_some_iff.mp hleft) (signedNumber?_eq_some_iff.mp hright) hinfinite
        · cases h
      · cases h
    · cases h
  · intro h
    cases h with
    | literal span parts infinite => simp only [infiniteValue?, infinite, if_true]
    | quotient span dividend divisor infinite =>
      simp only [infiniteValue?, signedNumber?_eq_some_iff.mpr dividend, signedNumber?_eq_some_iff.mpr divisor,
        infinite, if_true]

theorem infiniteValue?_eq_none_iff {t : Tree} : t.infiniteValue? = none ↔ ∀ z, ¬Infinite t z := by
  simp only [← infiniteValue?_eq_some_iff, Option.eq_none_iff_forall_ne_some, ne_eq]

theorem isInfinite_neg (x : Binary64) : x.neg.isInfinite = x.isInfinite := by
  cases x <;> rfl

/-- An infinity by its name is no number. -/
theorem signedNumber?_namedInfinity (span : Span) (negative : Bool) :
    (namedInfinity span negative).signedNumber? = none := by
  cases negative <;> simp [namedInfinity, signedNumber?]

/-! ## 2. What becomes of a node -/

theorem restoreInfinityInAll_eq (ts : List Tree) : restoreInfinityInAll ts = ts.map restoreInfinity := by
  induction ts with
  | nil => rfl
  | cons t ts ih => rw [restoreInfinityInAll, ih, List.map_cons]

theorem restoreInfinity_of_type {t : Tree} (h : t.isNumberType = true) : t.restoreInfinity = t := by
  obtain ⟨label, span, parts⟩ := t
  rw [restoreInfinity, if_pos h]

/-- An expression becomes its name if it is infinite once its parts have theirs. -/
theorem restoreInfinity_node {label : Label} {span : Span} {parts : List Tree}
    (h : (node label span parts).isNumberType = false) :
    (node label span parts).restoreInfinity = nameInfinity (node label span (parts.map restoreInfinity)) := by
  rw [restoreInfinity, if_neg (by simp [h]), restoreInfinityInAll_eq]

theorem isNumberType_of_ne {label : Label} {span : Span} {parts : List Tree} (h : label ≠ .literalType) :
    (node label span parts).isNumberType = false := by
  unfold isNumberType
  split
  · rename_i heq
    cases heq
    exact absurd rfl h
  · rfl

theorem nameInfinity_of_some {t : Tree} {z : Binary64} (h : t.infiniteValue? = some z) :
    t.nameInfinity = namedInfinity t.span z.isNegative := by
  rw [nameInfinity, h]

theorem nameInfinity_of_none {t : Tree} (h : t.infiniteValue? = none) : t.nameInfinity = t := by
  rw [nameInfinity, h]

/-- **What counts as a number when it is met** is a number before, and one that is not infinite. -/
theorem signedNumber?_restored {t : Tree} {x : Binary64} :
    t.restoreInfinity.signedNumber? = some x ↔ Signed t x ∧ x.isInfinite = false := by
  induction t using nodeInduction generalizing x with
  | node label span parts ih =>
    constructor
    · intro h
      by_cases htype : (node label span parts).isNumberType = true
      · rw [restoreInfinity_of_type htype, signedNumber?_eq_some_iff] at h
        cases h <;> cases htype
      · rw [restoreInfinity_node (Bool.eq_false_iff.mpr htype)] at h
        cases hvalue : (node label span (parts.map restoreInfinity)).infiniteValue? with
        | some z =>
          rw [nameInfinity_of_some hvalue, signedNumber?_namedInfinity] at h
          cases h
        | none =>
          rw [nameInfinity_of_none hvalue, signedNumber?_eq_some_iff] at h
          generalize hparts : parts.map restoreInfinity = parts' at h hvalue
          cases h with
          | number => exact ⟨.number .., by simpa [infiniteValue?] using hvalue⟩
          | minus span signed =>
            obtain ⟨e, rfl, rfl⟩ := List.map_eq_singleton_iff.mp hparts
            obtain ⟨hsigned, hfinite⟩ :=
              (ih e (List.mem_singleton_self e)).mp (signedNumber?_eq_some_iff.mpr signed)
            exact ⟨.minus span hsigned, by rwa [isInfinite_neg]⟩
    · rintro ⟨hsigned, hfinite⟩
      cases hsigned with
      | number =>
        rw [restoreInfinity_node (isNumberType_of_ne (by simp)),
          nameInfinity_of_none (by simp [infiniteValue?, hfinite])]
        rfl
      | @minus e y span signed =>
        rw [isInfinite_neg] at hfinite
        rw [restoreInfinity_node (isNumberType_of_ne (by simp)), nameInfinity_of_none rfl, List.map_cons,
          List.map_nil, signedNumber?, (ih e (List.mem_singleton_self e)).mpr ⟨signed, hfinite⟩, Option.map_some]

/-- **An expression is infinite when it is met**, after its parts, exactly if it is an infinite literal or an
infinite quotient of numbers that are not. -/
theorem infiniteValue?_restored {label : Label} {span : Span} {parts : List Tree} {z : Binary64} :
    (node label span (parts.map restoreInfinity)).infiniteValue? = some z ↔
      MetInfinite (node label span parts) z := by
  rw [infiniteValue?_eq_some_iff]
  constructor
  · intro h
    generalize hparts : parts.map restoreInfinity = parts' at h
    cases h with
    | literal span _ infinite => exact .literal span parts infinite
    | quotient span dividend divisor infinite =>
      obtain ⟨left, rest, rfl, rfl, hrest⟩ := List.map_eq_cons_iff.mp hparts
      obtain ⟨right, rfl, rfl⟩ := List.map_eq_singleton_iff.mp hrest
      obtain ⟨hleft, hfinite⟩ := signedNumber?_restored.mp (signedNumber?_eq_some_iff.mpr dividend)
      obtain ⟨hright, hfinite'⟩ := signedNumber?_restored.mp (signedNumber?_eq_some_iff.mpr divisor)
      exact .quotient span hleft hright hfinite hfinite' infinite
  · intro h
    cases h with
    | literal span _ infinite => exact .literal span _ infinite
    | quotient span dividend divisor finite_dividend finite_divisor infinite =>
      have hleft := signedNumber?_restored.mpr ⟨dividend, finite_dividend⟩
      have hright := signedNumber?_restored.mpr ⟨divisor, finite_divisor⟩
      exact .quotient span (signedNumber?_eq_some_iff.mp hleft) (signedNumber?_eq_some_iff.mp hright) infinite

theorem restoreInfinity_of_met {t : Tree} {z : Binary64} (h : MetInfinite t z) :
    t.restoreInfinity = namedInfinity t.span z.isNegative := by
  obtain ⟨label, span, parts⟩ := t
  have htype : (node label span parts).isNumberType = false := by
    refine isNumberType_of_ne ?_
    rintro rfl
    cases h
  rw [restoreInfinity_node htype, nameInfinity_of_some (infiniteValue?_restored.mpr h)]
  rfl

/-- A node that is not infinite when it is met is as it was, but for its parts. -/
theorem restoreInfinity_of_not_met {t : Tree} (htype : t.isNumberType = false)
    (h : ∀ z, ¬MetInfinite t z) : t.restoreInfinity = node t.label t.span (t.parts.map restoreInfinity) := by
  obtain ⟨label, span, parts⟩ := t
  rw [restoreInfinity_node htype, nameInfinity_of_none]
  · rfl
  · refine Option.eq_none_iff_forall_ne_some.mpr fun z hz => ?_
    exact h z (infiniteValue?_restored.mp hz)

/-! ## 3. Nodes on ways down -/

/-- The way leads from a node to another, and stops at none of the nodes before. -/
inductive Reached (stops : Tree → Prop) : Tree → List Nat → Tree → Prop
  | here (t : Tree) : Reached stops t [] t
  | part {t p u : Tree} {i : Nat} {way : List Nat} (passes : ¬stops t) (leads : t.parts[i]? = some p)
      (rest : Reached stops p way u) : Reached stops t (i :: way) u

/-- The node at the end of the way is not part of a type that is a number. -/
def ExpressionAt (t : Tree) (way : List Nat) (u : Tree) : Prop :=
  Reached (fun v => v.isNumberType = true) t way u

/-- The node at the end of the way is not part of a type that is a number, nor of an expression that is
infinite when it is met. -/
def MetAt (t : Tree) (way : List Nat) (u : Tree) : Prop :=
  Reached (fun v => v.isNumberType = true ∨ ∃ z, MetInfinite v z) t way u

theorem at?_node_cons (label : Label) (span : Span) (parts : List Tree) (i : Nat) (way : List Nat) :
    (node label span parts).at? (i :: way) = parts[i]?.bind (·.at? way) := by
  rw [at?, Tree.parts]
  cases parts[i]? <;> rfl

/-- A node that is met stands where it stood, whatever has become of it. -/
theorem at?_restoreInfinity {t u : Tree} {way : List Nat} (h : MetAt t way u) :
    t.restoreInfinity.at? way = some u.restoreInfinity := by
  induction h with
  | here t => rfl
  | @part t p u i way passes leads rest ih =>
    rw [not_or, not_exists, Bool.not_eq_true] at passes
    rw [restoreInfinity_of_not_met passes.1 passes.2, at?_node_cons, List.getElem?_map, leads]
    exact ih

theorem not_infinite_namedInfinity (span : Span) (negative : Bool) {way : List Nat} {u : Tree}
    (h : ExpressionAt (namedInfinity span negative) way u) (z : Binary64) : ¬Infinite u z := by
  have hname : ∀ {way u}, ExpressionAt (node (.identifier "Infinity") span []) way u → ¬Infinite u z := by
    intro way u h
    cases h with
    | here => exact fun hinfinite => nomatch hinfinite
    | part passes leads rest => simp [parts] at leads
  cases negative with
  | false => exact hname h
  | true =>
    cases h with
    | here => exact fun hinfinite => nomatch hinfinite
    | @part _ p _ i way passes leads rest =>
      have hp : p ∈ [node (.identifier "Infinity") span []] := List.mem_of_getElem? leads
      obtain rfl := List.mem_singleton.mp hp
      exact hname rest

/-- **No expression with an infinite value is left**, by induction on the tree: a node has its name, or is
judged as it was when it was met. -/
theorem not_infinite_restored {t u : Tree} {way : List Nat} (h : ExpressionAt t.restoreInfinity way u)
    (z : Binary64) : ¬Infinite u z := by
  induction t using nodeInduction generalizing way u with
  | node label span parts ih =>
    by_cases htype : (node label span parts).isNumberType = true
    · rw [restoreInfinity_of_type htype] at h
      cases h with
      | here =>
        intro hinfinite
        cases hinfinite <;> cases htype
      | part passes => exact absurd htype passes
    · by_cases hmet : ∃ z, MetInfinite (node label span parts) z
      · obtain ⟨z', hz'⟩ := hmet
        rw [restoreInfinity_of_met hz'] at h
        exact not_infinite_namedInfinity _ _ h z
      · rw [restoreInfinity_of_not_met (Bool.eq_false_iff.mpr htype) (not_exists.mp hmet)] at h
        cases h with
        | here =>
          intro hinfinite
          exact hmet ⟨z, infiniteValue?_restored.mp (infiniteValue?_eq_some_iff.mpr hinfinite)⟩
        | part passes leads rest =>
          obtain ⟨p, hp, rfl⟩ := List.mem_map.mp (List.mem_of_getElem? leads)
          exact ih p hp rest

/-- A tree without such expressions stays as it is. -/
theorem restoreInfinity_of_forall {t : Tree} (h : ∀ way u, ExpressionAt t way u → ∀ z, ¬Infinite u z) :
    t.restoreInfinity = t := by
  induction t using nodeInduction with
  | node label span parts ih =>
    by_cases htype : (node label span parts).isNumberType = true
    · exact restoreInfinity_of_type htype
    · have hsame : ∀ p ∈ parts, p.restoreInfinity = p := by
        intro p hp
        obtain ⟨i, hi⟩ := List.mem_iff_getElem?.mp hp
        exact ih p hp fun way u hu => h (i :: way) u (.part htype hi hu)
      have hparts : parts.map restoreInfinity = parts := (List.map_congr_left hsame).trans (List.map_id _)
      rw [restoreInfinity_node (Bool.eq_false_iff.mpr htype), hparts, nameInfinity_of_none]
      exact infiniteValue?_eq_none_iff.mpr (h [] _ (.here _))

/-! ## 4. The account of the pass -/

/-- What becomes of a tree whose infinities are written by name. -/
structure InfinityAccount (t t' : Tree) : Prop where
  /-- No expression is an infinite literal or an infinite quotient of two numbers. -/
  complete : ∀ way u, ExpressionAt t' way u → ∀ z, ¬Infinite u z
  /-- An expression that is infinite when it is met has become its name, with the sign of its value. -/
  named : ∀ way u z, MetAt t way u → MetInfinite u z →
    t'.at? way = some (namedInfinity u.span z.isNegative)
  /-- Any other node that is met is as it was, but for its parts, and these are as many as before. -/
  kept : ∀ way u, MetAt t way u → u.isNumberType = false → (∀ z, ¬MetInfinite u z) →
    ∃ parts, t'.at? way = some (node u.label u.span parts) ∧ parts.length = u.parts.length
  /-- A type that is a number is as it was, with its parts. -/
  types : ∀ way u, MetAt t way u → u.isNumberType = true → t'.at? way = some u
  /-- For a second time nothing is left to do. -/
  stable : t'.restoreInfinity = t'

/-- **Infinities are written by name**, all of them and nothing else. -/
theorem restoreInfinity_account (t : Tree) : InfinityAccount t t.restoreInfinity where
  complete _ _ h z := not_infinite_restored h z
  named way u z h hmet := by rw [at?_restoreInfinity h, restoreInfinity_of_met hmet]
  kept way u h htype hnot := by
    refine ⟨u.parts.map restoreInfinity, ?_, List.length_map _⟩
    rw [at?_restoreInfinity h, restoreInfinity_of_not_met htype hnot]
  types way u h htype := by rw [at?_restoreInfinity h, restoreInfinity_of_type htype]
  stable := restoreInfinity_of_forall fun _ _ h z => not_infinite_restored h z

/-- Half of an infinite literal is no quotient of numbers any more when it is met. -/
example : (node (.binary .div) ⟨0, 7⟩
      [node (.number (.infinite false)) ⟨0, 5⟩ [], node (.number (.ofNat 2)) ⟨6, 7⟩ []]).restoreInfinity =
    node (.binary .div) ⟨0, 7⟩
      [node (.identifier "Infinity") ⟨0, 5⟩ [], node (.number (.ofNat 2)) ⟨6, 7⟩ []] := by rfl

end PackageRefs.Script.Tree
