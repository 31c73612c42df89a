/-
# Names of packages

A reference names a package and perhaps a file inside it.  `packageRoot` cuts the file off.  Since
names also come out of scans over arbitrary text, `isPlausibleName` keeps those that could be
installed: the regular names, and names of some families whose spelling is freer.
-/
import PackageRefs.Reference.Filter

namespace PackageRefs.Package

open PackageRefs.Text

/-! ## 1. The package that a reference names -/

/-- The text before the slash of the given number, counted from zero; the whole text if it has not
that many. -/
def beforeSlash : Nat → List Char → List Char
  | _, [] => []
  | n, c :: r =>
    if c == '/' then
      match n with
      | 0 => []
      | m + 1 => c :: beforeSlash m r
    else c :: beforeSlash n r

/-- The package of a reference: the first part of its path, or the first two behind an `@`. -/
def rootChars (name : List Char) : List Char :=
  beforeSlash (if name.head? == some '@' then 1 else 0) name

/-- The package of a reference. -/
def packageRoot (name : String) : String := String.ofList (rootChars name.toList)

/-- A text with its first slash written as two underscores. -/
def flattened : List Char → List Char
  | [] => []
  | c :: r => if c == '/' then '_' :: '_' :: r else c :: flattened r

/-- The name under which the types of a package are published: those of `@scope/pkg` are
`scope__pkg`. -/
def typesName (package : String) : String :=
  match package.toList with
  | '@' :: inner => String.ofList (flattened inner)
  | _ => package

/-! ## 2. Names that could be installed -/

/-- A small letter or a digit of ASCII. -/
def isNameHead (c : Char) : Bool := ('a' ≤ c && c ≤ 'z') || isAsciiDigit c

/-- A character of a regular name after its first. -/
def isNameTail (c : Char) : Bool :=
  isNameHead c || c == '.' || c == '_' || c == '~' || c == '-'

/-- A small letter or digit, and then such characters, dots, underscores, tildes and hyphens. -/
def isRegularName : List Char → Bool
  | [] => false
  | c :: r => isNameHead c && r.all isNameTail

/-- An `@`, a regular name, a slash and another regular name. -/
def isScopedName : List Char → Bool
  | '@' :: inner =>
    let scope := inner.takeWhile (· != '/')
    match inner.dropWhile (· != '/') with
    | _ :: bare => isRegularName scope && isRegularName bare
    | [] => false
  | _ => false

/-- How the names of well-known families start. -/
def knownStarts : List String :=
  ["react", "vue", "angular", "jquery", "lodash", "moment", "d3", "rxjs"]

/-- How the names of scripts end. -/
def knownEnds : List String := [".js", "-js", "js"]

/-- The name belongs to a family whose spelling is free. -/
def isFamilyName (name : List Char) : Bool :=
  let small := name.map lowerChar
  knownStarts.any (fun start => start.toList.isPrefixOf small) ||
    knownEnds.any (fun tail => tail.toList.isSuffixOf small)

/-- The longest name of a package, in bytes. -/
def longestPackageName : Nat := 214

/-- The reference could name an installed package. -/
def isPlausibleName (name : String) : Bool :=
  let package := rootChars name.toList
  !package.isEmpty && byteCount package ≤ longestPackageName && !package.any isBlank &&
    package.any isAsciiAlphanumeric &&
    (isRegularName package || isScopedName package || isFamilyName package)

end PackageRefs.Package
