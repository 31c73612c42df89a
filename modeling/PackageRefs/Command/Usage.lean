/-
# Help and complaints about the command line

Texts are made of pieces, each with an emphasis, so that they can be shown with colours or without.
-/
import PackageRefs.Command.Arguments

namespace PackageRefs.Command

/-! ## 1. Pieces of text -/

/-- The emphasis of a piece of text. -/
inductive Emphasis where
  | plain
  | heading
  | trouble
  /-- to be typed as it stands -/
  | literal
  /-- right -/
  | valid
  /-- wrong -/
  | invalid
  deriving DecidableEq, Inhabited, Repr

/-- The sequence that turns the emphasis on. -/
def Emphasis.opening : Emphasis → String
  | plain => ""
  | heading => "\x1b[1m\x1b[4m"
  | trouble => "\x1b[1m\x1b[31m"
  | literal => "\x1b[1m"
  | valid => "\x1b[32m"
  | invalid => "\x1b[33m"

/-- A text with emphasis. -/
abbrev Pieces := List (Emphasis × String)

/-- A text without emphasis. -/
def plain (text : String) : Pieces := [(.plain, text)]

/-- A text between single quotes. -/
def quoted (emphasis : Emphasis) (text : String) : Pieces :=
  [(.plain, "'"), (emphasis, text), (.plain, "'")]

/-- A piece of text as it is shown. -/
def showPiece (colour : Bool) : Emphasis × String → String
  | (.plain, text) => text
  | (emphasis, text) => if colour then emphasis.opening ++ text ++ "\x1b[0m" else text

/-- A text as it is shown. -/
def showPieces (colour : Bool) (pieces : Pieces) : String :=
  String.join (pieces.map (showPiece colour))

/-! ## 2. Usage -/

/-- The command has options of its own. -/
def CommandSpec.hasOptions (spec : CommandSpec) : Bool := spec.options.any (· != helpOption)

/-- An option with its value. -/
def optionPieces (o : OptionSpec) : Pieces :=
  (.literal, "--" ++ o.long) :: match o.value with
    | some v => plain (" <" ++ v.name ++ ">")
    | none => []

/-- How a command is used, mentioning the arguments that are given. -/
def usagePieces (spec : CommandSpec) (given : List String) : Pieces :=
  let options :=
    if given.isEmpty then (if spec.hasOptions then plain " [OPTIONS]" else [])
    else
      given.eraseDups.flatMap fun key =>
        match spec.options.find? (·.long == key) with
        | some o => plain " " ++ optionPieces o
        | none => []
  let positionals := spec.positionals.flatMap fun p =>
    plain (" " ++ p.text (p.required || given.contains p.name))
  let command := if spec.subcommands.isEmpty then [] else plain " <COMMAND>"
  [(.heading, "Usage:"), (.plain, " "), (.literal, String.intercalate " " spec.name)] ++ options ++
    positionals ++ command

/-! ## 3. Help -/

/-- An item of a list in the help: what it is called, how wide that is, and what it is good for. -/
structure HelpItem where
  label : Pieces
  width : Nat
  help : String

/-- The width of a terminal. -/
def terminalWidth : Nat := 100

/-- The item's text goes on a line of its own: the names take too much room, and the text would not
fit beside them. -/
def needsOwnLine (longest : Nat) (item : HelpItem) : Bool :=
  let taken := longest + 12
  taken ≤ terminalWidth && 2 * terminalWidth < 5 * taken &&
    terminalWidth - taken < item.help.length

/-- A list in the help under its heading.  The names start with an indent. -/
def helpSection (heading : String) (indent : Nat) (items : List HelpItem) : Pieces :=
  match items with
  | [] => []
  | items =>
    let longest := (items.map (·.width)).foldl max 0
    let ownLine := items.any (needsOwnLine (longest - indent))
    let line (item : HelpItem) : Pieces :=
      let gap :=
        if ownLine then "\n          "
        else "".pushn ' ' (longest - item.width + 2)
      plain "  " ++ item.label ++ plain (gap ++ item.help ++ "\n")
    plain "\n" ++ [(.heading, heading)] ++ plain "\n" ++ items.flatMap line

/-- An option in the help. -/
def optionItem (o : OptionSpec) : HelpItem where
  label := (match o.short with
    | some c => [(.literal, String.ofList ['-', c]), (.plain, ", ")]
    | none => plain "    ") ++ optionPieces o
  width := 4 + o.text.length
  help := o.help ++ match o.value.bind (·.default) with
    | some value => " [default: " ++ value ++ "]"
    | none => ""

/-- A positional argument in the help. -/
def positionalItem (p : PositionalSpec) : HelpItem :=
  ⟨plain (p.text p.required), (p.text p.required).length, p.help⟩

/-- A command in the help. -/
def commandItem : String × String → HelpItem
  | (name, about) => ⟨[(.literal, name)], name.length, about⟩

/-- The help of a command. -/
def helpPieces (spec : CommandSpec) : Pieces :=
  plain (spec.about ++ "\n\n") ++ usagePieces spec [] ++ plain "\n" ++
    helpSection "Commands:" 0 (spec.subcommands.map commandItem) ++
    helpSection "Arguments:" 0 (spec.positionals.map positionalItem) ++
    helpSection "Options:" 4 (spec.options.map optionItem)

/-! ## 4. Complaints -/

/-- A line of advice. -/
def tip (advice : Pieces) : Pieces := plain "\n  " ++ [(.valid, "tip:")] ++ plain " " ++ advice

/-- Names of similar things. -/
def similarTip (what : String) (names : List String) : Pieces :=
  let intro := if names.length == 1 then "a similar " ++ what ++ " exists: "
    else "some similar " ++ what ++ "s exist: "
  tip (plain intro ++ (List.intersperse (plain ", ") (names.map (quoted .valid))).flatten)

/-- What is wrong. -/
def causePieces : UsageCause → Pieces
  | .unknown argument _ _ _ | .hiddenCommand argument =>
    plain "unexpected argument " ++ quoted .invalid argument ++ plain " found"
  | .unknownCommand name _ => plain "unrecognized subcommand " ++ quoted .invalid name
  | .repeated argument =>
    plain "the argument " ++ quoted .invalid argument ++ plain " cannot be used multiple times"
  | .noValue argument =>
    plain "a value is required for " ++ quoted .invalid argument ++
      plain " but none was supplied"
  | .badValue argument value reason =>
    plain "invalid value " ++ quoted .invalid value ++ plain " for " ++ quoted .literal argument ++
      plain (": " ++ reason)
  | .surplusValue argument value =>
    plain "unexpected value " ++ quoted .invalid value ++ plain " for " ++
      quoted .literal argument ++ plain " found; no more were expected"
  | .missing arguments =>
    plain "the following required arguments were not provided:" ++
      arguments.flatMap fun a => plain "\n  " ++ [(.valid, a)]

/-- What could be done about it. -/
def advicePieces : UsageCause → Pieces
  | .unknown argument similar elsewhere asValue =>
    let tips := similar.toList.flatMap (fun name => similarTip "argument" [name]) ++
      (if asValue then
        tip (plain "to pass " ++ quoted .invalid argument ++ plain " as a value, use " ++
          quoted .valid ("-- " ++ argument))
      else []) ++
      elsewhere.toList.flatMap fun name => tip (quoted .valid name ++ plain " exists")
    if tips.isEmpty then [] else plain "\n" ++ tips
  | .hiddenCommand name =>
    plain "\n" ++ tip (plain "subcommand " ++ quoted .valid name ++
      plain " exists; to use it, remove the " ++ quoted .invalid "--" ++ plain " before it")
  | .unknownCommand _ (name :: names) => plain "\n" ++ similarTip "subcommand" (name :: names)
  | _ => []

/-- A complaint about a command line. -/
def troublePieces (spec : CommandSpec) (cause : UsageCause) (given : Option (List String)) :
    Pieces :=
  let usage := match given with
    | some keys => plain "\n\n" ++ usagePieces spec keys
    | none => []
  [(.trouble, "error:")] ++ plain " " ++ causePieces cause ++ advicePieces cause ++ usage ++
    plain "\n\nFor more information, try " ++ quoted .literal "--help" ++ plain ".\n"

end PackageRefs.Command
