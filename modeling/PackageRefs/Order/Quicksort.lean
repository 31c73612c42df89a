/-
# Quicksort

Sorting a list by dividing it around one of its elements, the pivot, again and again.

**Order of equal elements.**  Elements that compare equal need not keep their order, but the result is
the same on every run: the pivot is the middle one of three elements at fixed places, or of three such
middle ones in a long list, and dividing a list moves its elements in one way only.  A short list is
sorted without a pivot and keeps equal elements in order, and so does a list that is in order already.

**Many equal elements.**  The elements behind a pivot are not below it.  If the next pivot among them
is not above it either, it is one of the smallest there, and all that equal it are split off at once.

**Bad pivots.**  A list is divided a number of times at most that grows with the logarithm of its
length; what is left after that is sorted as a short list is.
-/
namespace PackageRefs.Order.Quicksort

variable {α : Type}

/-! ## 1. The pivot -/

/-- The place of the middle one of the elements at three places; each place comes with its element. -/
def median (less : α → α → Bool) (a b c : Nat × α) : Nat × α :=
  let isFirst := less a.2 b.2
  if isFirst != less a.2 c.2 then a
  else if isFirst != less b.2 c.2 then c
  else b

/-- The place and the element, of a stretch of a list, that the stretch is divided at: from three of eight
parts of the stretch, in a long one again the elements that these would be divided at, the middle
one. -/
def pivot? (less : α → α → Bool) (xs : Array α) (start size : Nat) : Option (Nat × α) :=
  let part := size / 8
  let choose (i : Nat) :=
    if part < 8 then xs[i]?.map (i, ·) else pivot? less xs i part
  match choose start, choose (start + 4 * part), choose (start + 7 * part) with
  | some a, some b, some c => some (median less a b c)
  | _, _, _ => none
termination_by size
decreasing_by omega

/-! ## 2. Dividing -/

/-- Elements that have been compared with the pivot: those below it, the last one first, and the others.
Each new element moves the first of the others behind them, and takes its place if it is one of
them. -/
def compare (isBelow : α → Bool) (done : List α × List α) (x : α) : List α × List α :=
  let (below, others) := done
  let others := others.drop 1 ++ others.take 1
  if isBelow x then (x :: below, others) else (below, x :: others)

/-- The elements below a pivot and the others; the first element is compared last. -/
def divide (isBelow : α → Bool) (xs : List α) : List α × List α :=
  match (xs.drop 1 ++ xs.take 1).foldl (compare isBelow) ([], []) with
  | ([], others) => ([], others)
  | (last :: below, others) => (last :: below.reverse, others)

/-- A list without the element at a place; the first element is there instead. -/
def without (i : Nat) (xs : List α) : List α :=
  match xs with
  | [] => []
  | x :: rest => if i = 0 then rest else rest.set (i - 1) x

/-! ## 3. Sorting -/

/-- Lists up to this length are sorted without a pivot. -/
def shortLength : Nat := 20

/-- Parts of a list up to this length are sorted without a pivot. -/
def shortPart : Nat := 32

/-- Sorts a list and keeps equal elements in order. -/
def stable (less : α → α → Bool) (xs : List α) : List α := xs.mergeSort fun a b => !less b a

/-- Sorts a part of a list that is divided a number of times at most, given the pivot before it. -/
def sortPart (less : α → α → Bool) : Nat → Option α → List α → List α
  | 0, _, xs => stable less xs
  | limit + 1, before, xs =>
    match if xs.length ≤ shortPart then none else pivot? less xs.toArray 0 xs.length with
    | none => stable less xs
    | some (i, pivot) =>
      if before.any fun p => !less p pivot then
        let (equal, above) := divide (fun x => !less pivot x) (without i xs)
        equal ++ pivot :: sortPart less limit none above
      else
        let (below, others) := divide (fun x => less x pivot) (without i xs)
        sortPart less limit before below ++ pivot :: sortPart less limit (some pivot) others

/-- No element is below the one before it. -/
def isOrdered (less : α → α → Bool) (xs : List α) : Bool :=
  (xs.zip (xs.drop 1)).all fun (x, y) => !less y x

end Quicksort

open Quicksort in
/-- Sorts a list; the order of equal elements is fixed, but it need not be that in the list. -/
def quicksort {α : Type} (less : α → α → Bool) (xs : List α) : List α :=
  if xs.length ≤ shortLength || isOrdered less xs then stable less xs
  else sortPart less (2 * xs.length.log2) none xs

end PackageRefs.Order
