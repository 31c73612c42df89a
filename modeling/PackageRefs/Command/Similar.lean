/-
# How similar two words are

Jaro similarity: two characters match if they are equal and not too far apart.  It is the mean of the
share of matches in either word and the share of matches that stand in the same order.  It is computed
in double precision, so that a comparison with a bound is the comparison of doubles.
-/
import PackageRefs.Number.Binary64

namespace PackageRefs.Command

open PackageRefs.Number

/-- Takes the first character of the second word that equals the given one, is not taken yet and lies
between the bounds.  The second word comes with marks of what is taken. -/
def takeMatch (c : Char) (low high : Nat) :
    Nat → List (Char × Bool) → Option (List (Char × Bool))
  | _, [] => none
  | j, (d, taken) :: r =>
    if high ≤ j then none
    else if low ≤ j && c == d && !taken then some ((d, true) :: r)
    else (takeMatch c low high (j + 1) r).map ((d, taken) :: ·)

/-- The characters of the first word that find a match, and the marks of the second word. -/
def matchWords (reach : Nat) :
    Nat → List Char → List (Char × Bool) → List Char × List (Char × Bool)
  | _, [], second => ([], second)
  | i, c :: r, second =>
    match takeMatch c (i - reach) (i + reach + 1) 0 second with
    | some second =>
      let (matched, second) := matchWords reach (i + 1) r second
      (c :: matched, second)
    | none => matchWords reach (i + 1) r second

/-- The Jaro similarity of two words. -/
def similarity (first second : List Char) : Binary64 :=
  if first.isEmpty && second.isEmpty then .ofNat 1
  else
    let reach := max first.length second.length / 2 - 1
    let (mine, marks) := matchWords reach 0 first (second.map (·, false))
    let yours := (marks.filter (·.2)).map (·.1)
    let count := mine.length
    if count == 0 then .zero
    else
      let swapped := ((mine.zip yours).countP fun p => p.1 != p.2) / 2
      let share (n k : Nat) : Binary64 := (Binary64.ofNat n).div (.ofNat k)
      (((share count first.length).add (share count second.length)).add
        (share (count - swapped) count)).div (.ofNat 3)

/-- Words are similar above this bound. -/
def similarBound : Binary64 := .ofDecimal 7 (-1)

/-- Puts a word into a list that is ordered by similarity, behind those that are as similar. -/
def insertSimilar (x : Binary64 × String) :
    List (Binary64 × String) → List (Binary64 × String)
  | [] => [x]
  | y :: r => if Binary64.compare y.1 x.1 == some .gt then x :: y :: r else y :: insertSimilar x r

/-- The candidates that are similar to a word, the most similar one last. -/
def similarWords (word : String) (candidates : List String) : List String :=
  let scored := candidates.map fun c => (similarity word.toList c.toList, c)
  let close := scored.filter fun s => Binary64.compare s.1 similarBound == some .gt
  (close.foldl (fun sorted s => insertSimilar s sorted) []).map (·.2)

end PackageRefs.Command
