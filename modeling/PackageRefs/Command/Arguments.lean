/-
# Reading a command line

The words of a command line are read from left to right.  A word may name an option, give an option
its value, or be a positional argument; behind `--` every word is positional.  The first trouble ends
the reading.

The value of an option is looked at when the next argument begins, so what is wrong with a value is
reported before what is wrong with the words behind it.
-/
import PackageRefs.Command.Similar
import PackageRefs.Command.Spec
import PackageRefs.Text.Character

namespace PackageRefs.Command

open PackageRefs.Text

/-! ## 1. Troubles -/

/-- What is wrong with a command line. -/
inductive UsageCause where
  /-- the argument is not known; perhaps a similar one is, or another command has it; perhaps it is
  meant as a value -/
  | unknown (argument : String) (similar : Option String) (elsewhere : Option String)
      (asValue : Bool)
  /-- the command is hidden behind dashes -/
  | hiddenCommand (name : String)
  | unknownCommand (name : String) (similar : List String)
  | repeated (argument : String)
  | noValue (argument : String)
  | badValue (argument value reason : String)
  | surplusValue (argument value : String)
  | missing (arguments : List String)
  deriving DecidableEq, Inhabited, Repr

/-- Why the reading of a command line ended early. -/
inductive Stop where
  /-- help was asked for -/
  | help (spec : CommandSpec)
  /-- no command was named -/
  | noCommand
  /-- something is wrong; the usage that is shown mentions the given arguments, if it is shown -/
  | trouble (spec : CommandSpec) (cause : UsageCause) (given : Option (List String))
  deriving Inhabited, Repr

/-! ## 2. Values -/

/-- Reads digits into a number of 64 bits, or says why that fails. -/
def readCount : Nat → List Char → Except String Nat
  | n, [] => .ok n
  | n, c :: r =>
    if !isAsciiDigit c then .error "invalid digit found in string"
    else
      let next := n * 10 + (c.toNat - '0'.toNat)
      if next < 18446744073709551616 then readCount next r
      else .error "number too large to fit in target type"

/-- The number that a text stands for, or why it stands for none. -/
def countOf (text : String) : Except String Nat :=
  match text.toList with
  | [] => .error "cannot parse integer from empty string"
  | ['+'] => .error "invalid digit found in string"
  | '+' :: digits => readCount 0 digits
  | digits => readCount 0 digits

/-- What is wrong with a value of the kind. -/
def valueTrouble (kind : ValueKind) (argument value : String) : Option UsageCause :=
  match kind with
  | .text => none
  | .path => if value.isEmpty then some (.noValue argument) else none
  | .count =>
    match countOf value with
    | .ok _ => none
    | .error reason => some (.badValue argument value reason)

/-! ## 3. What has been read -/

/-- An argument that words are read for. -/
inductive Slot where
  | option (spec : OptionSpec)
  | positional (spec : PositionalSpec)
  deriving DecidableEq, Inhabited, Repr

namespace Slot

/-- The name under which the argument is kept. -/
def key : Slot → String
  | option o => o.long
  | positional p => p.name

/-- The argument as it is named in messages. -/
def text : Slot → String
  | option o => o.text
  | positional p => p.text p.required

/-- What a value has to be. -/
def kind : Slot → ValueKind
  | option o => (o.value.map (·.kind)).getD .text
  | positional p => p.kind

/-- The argument may be given more than once. -/
def many : Slot → Bool
  | option _ => false
  | positional p => p.many

end Slot

/-- The state of reading the words of a command. -/
structure Reading where
  spec : CommandSpec
  /-- the arguments that are complete, in their order, with their values -/
  given : List (String × List String) := []
  /-- the argument whose values are being read -/
  pending : Option (Slot × List String) := none
  /-- the number of positional arguments that are filled -/
  filled : Nat := 0
  /-- every word is positional from here on -/
  onlyPositional : Bool := false
  deriving Inhabited, Repr

namespace Reading

/-- The names of the arguments that are complete. -/
def givenKeys (r : Reading) : List String := r.given.map (·.1)

/-- The values of an argument. -/
def values (r : Reading) (key : String) : List String := (r.given.lookup key).getD []

/-- The argument is there. -/
def has (r : Reading) (key : String) : Bool := (r.given.lookup key).isSome

/-- Ends the reading with a trouble. -/
def trouble {α : Type} (r : Reading) (cause : UsageCause) (given : Option (List String)) :
    Except Stop α :=
  .error (.trouble r.spec cause given)

/-- Keeps an argument with its values. -/
def keep (r : Reading) (key : String) (values : List String) : Reading :=
  if r.has key then
    { r with given := r.given.map fun (k, vs) => (k, if k == key then vs ++ values else vs) }
  else { r with given := r.given ++ [(key, values)] }

/-- Completes an argument. -/
def complete (r : Reading) (slot : Slot) (values : List String) : Except Stop Reading :=
  if values.isEmpty then r.trouble (.noValue slot.text) none
  else if r.has slot.key && !slot.many then r.trouble (.repeated slot.text) (some [])
  else
    match values.findSome? (valueTrouble slot.kind slot.text) with
    | some cause => r.trouble cause none
    | none => .ok (r.keep slot.key values)

/-- Completes the argument whose values are being read. -/
def settle (r : Reading) : Except Stop Reading :=
  match r.pending with
  | none => .ok r
  | some (slot, values) => { r with pending := none }.complete slot values

/-- The state after completing, or the state before if that fails. -/
def settled (r : Reading) : Reading :=
  match r.settle with
  | .ok r => r
  | .error _ => r

/-- The command takes positional arguments. -/
def takesPositionals (r : Reading) : Bool := !r.spec.positionals.isEmpty

/-! ## 4. Options -/

/-- A switch that is given. -/
def switch (r : Reading) (o : OptionSpec) : Except Stop Reading := do
  let r ← r.settle
  if o == helpOption then .error (.help r.spec)
  else if r.has o.long then r.trouble (.repeated o.text) (some [])
  else .ok (r.keep o.long [])

/-- An option that takes a value, with the value if it is attached. -/
def valued (r : Reading) (o : OptionSpec) (attached : Option String) : Except Stop Reading := do
  let r ← r.settle
  match attached with
  | some value => r.complete (.option o) [value]
  | none => .ok { r with pending := some (.option o, []) }

/-- Another command that has a similar option, if it is named among the words that follow. -/
def elsewhere? (name : String) (rest : List String) : Option String :=
  let found := commands.filterMap fun (command, spec) =>
    match (similarWords name (spec.options.map (·.long))).getLast?, rest.idxOf? command with
    | some long, some place => some (place, command ++ " --" ++ long)
    | _, _ => none
  let first := found.foldl (fun (best : Option (Nat × String)) x =>
    match best with
    | some b => if x.1 < b.1 then some x else some b
    | none => some x) none
  first.map (·.2)

/-- A long option that the command does not have. -/
def unknownLong {α : Type} (r : Reading) (name : String) (rest : List String) : Except Stop α :=
  let r := r.settled
  let similar := (similarWords name (r.spec.options.map (·.long))).getLast?
  let elsewhere :=
    if similar.isSome || r.spec.subcommands.isEmpty then none else elsewhere? name rest
  let asValue := similar.isNone && elsewhere.isNone && r.takesPositionals
  r.trouble (.unknown ("--" ++ name) (similar.map ("--" ++ ·)) elsewhere asValue)
    (some (r.givenKeys ++ similar.toList))

/-- A long option, with its attached value. -/
def long (r : Reading) (name : String) (attached : Option String) (rest : List String) :
    Except Stop Reading :=
  match r.spec.options.find? (·.long == name) with
  | none => r.unknownLong name rest
  | some o =>
    if o.value.isSome then r.valued o attached
    else
      match attached with
      | none => r.switch o
      | some value =>
        let required := (r.spec.positionals.filter (·.required)).map (·.name)
        let others := r.givenKeys.filter fun k => !required.contains k
        r.trouble (.surplusValue o.text value) (some (others ++ [o.long]))

/-- The value attached to a short option; an equals sign before it is passed over. -/
def attachedValue : List Char → Option String
  | [] => none
  | '=' :: value => some (String.ofList value)
  | value => some (String.ofList value)

/-- Short options, one character each; what follows one that takes a value is its value. -/
def shorts (r : Reading) : List Char → Except Stop Reading
  | [] => .ok r
  | c :: rest =>
    match r.spec.options.find? (·.short == some c) with
    | none =>
      r.settled.trouble (.unknown (String.ofList ['-', c]) none none r.takesPositionals) (some [])
    | some o =>
      if o.value.isSome then r.valued o (attachedValue rest)
      else
        match r.switch o with
        | .error stop => .error stop
        | .ok r => r.shorts rest

/-! ## 5. Words -/

/-- A positional argument. -/
def positional (r : Reading) (word : String) : Except Stop Reading :=
  match r.spec.positionals[r.filled]? with
  | none => r.settled.trouble (.unknown word none none false) (some [])
  | some p =>
    match r.pending with
    | some (.positional q, values) =>
      if q == p && p.many then .ok { r with pending := some (.positional p, values ++ [word]) }
      else startPositional p
    | _ => startPositional p
where
  /-- Starts the next positional argument with the word. -/
  startPositional (p : PositionalSpec) : Except Stop Reading := do
    let r ← r.settle
    let filled := if p.many then r.filled else r.filled + 1
    .ok { r with pending := some (.positional p, [word]), filled }

/-- An option waits for its value. -/
def awaitsValue (r : Reading) : Option OptionSpec :=
  match r.pending with
  | some (.option o, []) => some o
  | _ => none

/-- A long option without its dashes, cut at the first equals sign. -/
def cutLong (text : List Char) : String × Option String :=
  let name := text.takeWhile (· != '=')
  let value := match text.drop name.length with
    | _ :: value => some (String.ofList value)
    | [] => none
  (String.ofList name, value)

/-- One word of a command line, with the words that follow it. -/
def word (r : Reading) (word : String) (rest : List String) : Except Stop Reading :=
  if r.onlyPositional then r.positional word
  else
    match word.toList with
    | ['-', '-'] => .ok { r with onlyPositional := true }
    | '-' :: '-' :: text =>
      let (name, attached) := cutLong text
      r.long name attached rest
    | '-' :: c :: text => r.shorts (c :: text)
    | _ =>
      match r.awaitsValue with
      | some o => .ok { r with pending := some (.option o, [word]) }
      | none => r.positional word

/-- All words of a command. -/
def words (r : Reading) : List String → Except Stop Reading
  | [] => r.settle
  | w :: rest =>
    match r.word w rest with
    | .error stop => .error stop
    | .ok r => r.words rest

end Reading

/-- Reads the words of a command and looks whether all that has to be given is there. -/
def readCommand (spec : CommandSpec) (words : List String) : Except Stop Reading :=
  match Reading.words { spec } words with
  | .error stop => .error stop
  | .ok r =>
    let missing := spec.positionals.filter fun p => p.required && !r.has p.name
    if missing.isEmpty then .ok r
    else
      r.trouble (.missing (missing.map fun p => p.text true))
        (some (r.givenKeys ++ missing.map (·.name)))

/-! ## 6. The whole command line -/

/-- A command with its arguments. -/
inductive Invocation where
  | analyze (file root : String) (threshold : Nat)
  | remove (file package : String) (force aggressive : Bool)
  | format (file : String) (minify : Bool)
  | bundle (packages : List String) (out : String) (minify : Bool)
  deriving DecidableEq, Inhabited, Repr

/-- The value of an argument that is given once. -/
def Reading.value (r : Reading) (key default : String) : String :=
  (r.values key).head?.getD default

/-- The command that has been read. -/
def invocationOf (name : String) (r : Reading) : Invocation :=
  match name with
  | "analyze" =>
    let threshold := match countOf (r.value "bundled-line-threshold" "10") with
      | .ok n => n
      | .error _ => 0
    .analyze (r.value "FILE" "") (r.value "root" ".") threshold
  | "remove" => .remove (r.value "FILE" "") (r.value "PACKAGE" "") (r.has "force") (r.has "aggressive")
  | "format" => .format (r.value "FILE" "") (r.has "minify")
  | _ => .bundle (r.values "PACKAGES") (r.value "out" "bundle.js") (r.has "minify")

/-- The command that help is asked about. -/
def readHelp : CommandSpec → List String → Stop
  | spec, [] => .help spec
  | spec, name :: rest =>
    match if spec.subcommands.isEmpty then none else commands.lookup name with
    | some found => readHelp found rest
    | none => .trouble spec (.unknownCommand name []) (some [])

/-- A word in the place of a command that is none. -/
def unknownCommand {α : Type} (word : String) : Except Stop α :=
  let similar := similarWords word (commands.map (·.1))
  .error (.trouble programSpec (.unknownCommand word similar) (some []))

/-- A command behind dashes. -/
def readHidden : List String → Except Stop Invocation
  | [] => .error .noCommand
  | word :: _ =>
    if (commands.lookup word).isSome then
      .error (.trouble programSpec (.hiddenCommand word) (some []))
    else unknownCommand word

/-- Reads a command line. -/
def readCommandLine : List String → Except Stop Invocation
  | [] => .error .noCommand
  | "help" :: rest => .error (readHelp programSpec rest)
  | "--" :: rest => readHidden rest
  | word :: rest =>
    match commands.lookup word with
    | some spec => (readCommand spec rest).map (invocationOf word)
    | none =>
      match word.toList with
      | '-' :: _ :: _ =>
        match ({ spec := programSpec } : Reading).word word rest with
        | .error stop => .error stop
        | .ok _ => readCommandLine rest
      | _ => unknownCommand word

end PackageRefs.Command
