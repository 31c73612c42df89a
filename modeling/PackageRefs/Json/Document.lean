/-
# Documents of JSON

Only little is asked of a document: that it is one, which keys its outermost object has, and the
text of single members.  So a value is read by passing over it.

Values may be held to more than the grammar: `Demand.full` also wants strings with a proper content,
numbers within range, and no nesting beyond a limit.
-/
import PackageRefs.Json.Text

namespace PackageRefs.Json

/-! ## 1. Passing over a value -/

/-- What is asked of values. -/
inductive Demand where
  /-- the grammar alone -/
  | grammar
  /-- contents as well, and no deeper nesting than the limit -/
  | full
  deriving DecidableEq, Repr, Inhabited

/-- Nesting has to stay below this depth where contents count. -/
def deepest : Nat := 128

/-- A phrase at the start of a text. -/
def readPhrase (phrase : String) (text : List Char) : Option (List Char) :=
  if phrase.toList.isPrefixOf text then some (text.drop phrase.toList.length) else none

/-- Passes over a string. -/
def passString (demand : Demand) (text : List Char) : Option (List Char) :=
  match readString text with
  | some (content, rest) => if demand == .full && content.isNone then none else some rest
  | none => none

/-- Passes over a number. -/
def passNumber (demand : Demand) (text : List Char) : Option (List Char) :=
  match readNumber text with
  | some (x, rest) => if demand == .full && !x.inRange then none else some rest
  | none => none

/-- Passes over a key and the colon behind it. -/
def passKey (demand : Demand) (text : List Char) : Option (List Char) :=
  match passString demand (skipSpace text) with
  | none => none
  | some rest =>
    match skipSpace rest with
    | ':' :: rest => some rest
    | _ => none

mutual

/-- Passes over a value at the given depth.  The fuel bounds the number of steps. -/
def passValue (demand : Demand) : Nat → Nat → List Char → Option (List Char)
  | 0, _, _ => none
  | fuel + 1, depth, text =>
    match skipSpace text with
    | [] => none
    | c :: r =>
      if c == '"' then passString demand (c :: r)
      else if c == '[' || c == '\x7b' then
        if demand == .full && deepest ≤ depth + 1 then none
        else
          let keyed := c == '\x7b'
          let close := if keyed then '\x7d' else ']'
          match skipSpace r with
          | [] => none
          | d :: rest =>
            if d == close then some rest
            else passMembers demand fuel (depth + 1) keyed close (d :: rest)
      else if c == 't' then readPhrase "true" (c :: r)
      else if c == 'f' then readPhrase "false" (c :: r)
      else if c == 'n' then readPhrase "null" (c :: r)
      else passNumber demand (c :: r)

/-- Passes over members up to the closing bracket. -/
def passMembers (demand : Demand) :
    Nat → Nat → Bool → Char → List Char → Option (List Char)
  | 0, _, _, _, _ => none
  | fuel + 1, depth, keyed, close, text =>
    match if keyed then passKey demand text else some text with
    | none => none
    | some text =>
      match passValue demand fuel depth text with
      | none => none
      | some text =>
        match skipSpace text with
        | [] => none
        | c :: r =>
          if c == ',' then passMembers demand fuel depth keyed close r
          else if c == close then some r
          else none

end

/-- Enough steps for any text. -/
def stepsFor (text : List Char) : Nat := 2 * text.length + 2

/-- Passes over a value at the top. -/
def pass (demand : Demand) (text : List Char) : Option (List Char) :=
  passValue demand (stepsFor text) 0 text

/-- Nothing but white space follows. -/
def atEnd (text : List Char) : Bool := (skipSpace text).isEmpty

/-- The text is a document. -/
def isDocument (demand : Demand) (text : List Char) : Bool :=
  match pass demand text with
  | some rest => atEnd rest
  | none => false

/-! ## 2. The outermost members -/

/-- The members of an object from its first key on: each key with the text from its value on, and
what stands behind the object.  The fuel is the length of the text. -/
def membersFrom : Nat → List Char → Option (List (List Char × List Char) × List Char)
  | 0, _ => none
  | fuel + 1, text =>
    match readString (skipSpace text) with
    | some (some key, rest) =>
      match skipSpace rest with
      | ':' :: value =>
        match pass .grammar value with
        | none => none
        | some rest =>
          match skipSpace rest with
          | ',' :: rest => (membersFrom fuel rest).map fun (ms, rest) => ((key, value) :: ms, rest)
          | '\x7d' :: rest => some ([(key, value)], rest)
          | _ => none
      | _ => none
    | _ => none

/-- The members of a document that is an object. -/
def members? (text : List Char) : Option (List (List Char × List Char)) :=
  match skipSpace text with
  | '\x7b' :: r =>
    let found :=
      match skipSpace r with
      | '\x7d' :: rest => some ([], rest)
      | _ => membersFrom r.length r
    match found with
    | some (ms, rest) => if atEnd rest then some ms else none
    | none => none
  | _ => none

/-- The text of the only element of a document that is a list. -/
def onlyElement? (text : List Char) : Option (List Char) :=
  match skipSpace text with
  | '[' :: value =>
    match pass .grammar value with
    | none => none
    | some rest =>
      match skipSpace rest with
      | ']' :: rest => if atEnd rest then some value else none
      | _ => none
  | _ => none

end PackageRefs.Json
