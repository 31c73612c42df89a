/-
# Short names for variables

The last step of making a script short: every numbered variable (see `Script.Scope`) gets a name of
as few characters as possible.

**Slots.**  Variables that are never needed at the same place may share a name.  The scopes are gone
over from the outside, and each variable takes the first slot none of whose variables is used in the
scope; variables of one slot get the same name.  A variable at the top of the script keeps its name,
but it has a slot as well.

**Names.**  The slots used most get the names with the fewest characters, and among names of one
length they are given in the order of the slots.  There are as many names as slots, and a slot with
nothing to rename takes one of them as if it were the first slot.  A name must not be a word of the
language, nor one that the script uses in its own form.

**Code from texts.**  A script that runs some keeps all its names.
-/
import PackageRefs.Order.Quicksort
import PackageRefs.Script.Scope
import PackageRefs.Script.Token
import Std.Data.HashSet

namespace PackageRefs.Script

namespace ShortName

/-! ## 1. The names to give -/

/-- The characters of names, the most frequent ones first; the digits at the end may not come
first. -/
def alphabet : Array Char :=
  "etnriaoscludfpmhg_vybxSCwTEDOkAjMNPFILRzBVHUWGKqJYXZQ$1024368579".toList.toArray

/-- How many characters may start a name. -/
def starters : Nat := 54

/-- The characters of a name after the first. -/
def laterCharacters (n : Nat) : List Char :=
  if h : n = 0 then []
  else alphabet.getD ((n - 1) % alphabet.size) 'e' :: laterCharacters ((n - 1) / alphabet.size)
termination_by n
decreasing_by
  have : (n - 1) / alphabet.size ≤ n - 1 := Nat.div_le_self _ _
  omega

/-- The name with a number, counted from the shortest. -/
def nth (n : Nat) : String :=
  String.ofList (alphabet.getD (n % starters) 'e' :: laterCharacters (n / starters))

/-- Words that may not name a variable in some kind of script. -/
def strictWords : List String :=
  ["await", "yield", "let", "static", "implements", "interface", "package", "private", "protected",
    "public"]

/-- The first names that are free, as many as asked for, from a number on; the fuel bounds how many
are tried. -/
def freeNames (taken : Std.HashSet String) : Nat → Nat → Nat → List String
  | 0, _, _ => []
  | _, 0, _ => []
  | fuel + 1, count + 1, n =>
    let name := nth n
    if taken.contains name || isReserved name || strictWords.contains name then
      freeNames taken fuel (count + 1) (n + 1)
    else name :: freeNames taken fuel count (n + 1)

/-! ## 2. Slots -/

/-- The variables of each slot. -/
abbrev Slots := List (List String)

/-- Puts variables into the slots that are free, in order, and into new slots after the last. -/
def fill (free : List String → Bool) : List String → Slots → Slots
  | [], slots => slots
  | names, [] => names.map ([·])
  | name :: names, slot :: slots =>
    if free slot then (name :: slot) :: fill free names slots
    else slot :: fill free (name :: names) slots

/-- The names that a tree uses or declares. -/
def namesIn (t : Tree) : List String :=
  t.gather fun t =>
    match t.label with
    | .identifier name | .binding name | .typeParameter name .. | .mappedType name .. => [name]
    | _ => []

/-- Gives slots to names that are declared for a tree: those of variables that are not inside it are
free. -/
def place (own : List String) (t : Tree) (slots : Slots) : Slots :=
  if own.isEmpty then slots
  else
    let inside := (t.parts.zipIdx.filter fun (_, i) => !belongsOutside t.label i).map (·.1)
    let used := Std.HashSet.ofList (inside.flatMap namesIn)
    fill (fun slot => !slot.any used.contains) own slots

mutual

/-- Gives slots to the variables that are declared in a tree. -/
def slotsOf : Tree → Slots → Slots
  | .node label span parts, slots =>
    let t := Tree.node label span parts
    slotsOfAll parts (place (t.ownNames.filter Names.isNumbered) t slots)

/-- Gives slots to the variables that are declared in several trees. -/
def slotsOfAll : List Tree → Slots → Slots
  | [], slots => slots
  | t :: ts, slots => slotsOfAll ts (slotsOf t slots)

end

/-- The slots of the variables of a script, also of those at its top. -/
def slotsOfProgram (program : Tree) : Slots :=
  slotsOf program (place (scopeNames program.programStatements) program [])

/-! ## 3. Names for slots -/

/-- A slot with its place and the number of uses of its variables.  Only those count that get a new
name. -/
structure Ranked where
  place : Nat
  uses : Nat
  names : List String
  deriving Inhabited

/-- The variables with their names: of the slots, ordered by use, as many as there are names of one
length take these names in the order of their places. -/
def assign : Nat → List Ranked → List String → List (String × String)
  | 0, _, _ => []
  | _, _, [] => []
  | fuel + 1, slots, name :: names =>
    let batch := name :: names.takeWhile (·.length == name.length)
    let chosen := (slots.take batch.length).mergeSort fun a b => a.place ≤ b.place
    let pairs := (chosen.zip batch).flatMap fun (slot, short) => slot.names.map (·, short)
    pairs ++ assign fuel (slots.drop batch.length) ((name :: names).drop batch.length)

/-- The names that a script uses or declares in their own form. -/
def takenNames (program : Tree) : Std.HashSet String :=
  Std.HashSet.ofList ((namesIn program).filter fun name => !Names.isNumbered name)

/-- The short names of the numbered variables of a script. -/
def shortNames (program : Tree) : Std.HashMap String String :=
  let slots := slotsOfProgram program
  let counts : Std.HashMap String Nat :=
    (program.uses .read).foldl (fun m (name, _) => m.alter name fun n => some (n.getD 0 + 1)) {}
  let ranked := slots.mapIdx fun place names =>
    let names := names.filter Names.isNumbered
    { place := if names.isEmpty then 0 else place
      names
      uses := names.foldl (fun n v => n + counts.getD v 0) 0 : Ranked }
  let ordered := Order.quicksort (fun a b => b.uses < a.uses) ranked
  let taken := takenNames program
  let short := freeNames taken (slots.length + taken.size + 100) slots.length 0
  Std.HashMap.ofList (assign (slots.length + 1) ordered short)

/-- The label with short names in it. -/
def shorten (short : String → String) : Label → Label
  | .identifier name => .identifier (short name)
  | .binding name => .binding (short name)
  | .typeParameter name isIn isOut isConst =>
    .typeParameter (short name) isIn isOut isConst
  | .mappedType key optional isReadonly => .mappedType (short key) optional isReadonly
  | label => label

/-- A numbered name as it was written: without the last mark and what follows. -/
def written (name : String) : String :=
  if Names.isNumbered name then
    String.ofList (((name.toList.reverse.dropWhile (· != '#')).drop 1).reverse)
  else name

end ShortName

/-- A script with short names for all its numbered variables. -/
def Tree.withShortNames (program : Tree) : Tree :=
  let table := ShortName.shortNames program
  let short :=
    if program.anyNode Tree.isDynamic then ShortName.written else fun name => table.getD name name
  program.mapUp fun
    | .node label span parts =>
      let parts := parts.mapIdx fun i t =>
        if isMemberName label i then t.withMemberName ShortName.written else t
      .node (ShortName.shorten short label) span parts

end PackageRefs.Script
