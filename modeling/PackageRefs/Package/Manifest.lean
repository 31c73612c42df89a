/-
# Manifests

The manifest of a package is a JSON document.  Two things are read from it: the version, and whether
it holds a configuration for the formatter.
-/
import PackageRefs.Json.Document

namespace PackageRefs.Package

open PackageRefs.Json

/-- A value that is a string, or null, which is no string; anything else is refused. -/
def stringOrNull? (text : List Char) : Option (Option String) :=
  match skipSpace text with
  | '"' :: r =>
    match readString ('"' :: r) with
    | some (some content, _) => some (some (String.ofList content))
    | _ => none
  | text => (readPhrase "null" text).map fun _ => none

/-- The version that a manifest declares.  The manifest is an object, in which the version may stand
once, or a list of the version alone. -/
def declaredVersion (manifest : String) : Option String :=
  let text := manifest.toList
  match members? text with
  | some ms =>
    match ms.filter (fun m => m.1 == "version".toList) with
    | [(_, value)] => (stringOrNull? value).join
    | _ => none
  | none =>
    match onlyElement? text with
    | some value => (stringOrNull? value).join
    | none => none

/-- The key under which a manifest holds a configuration for the formatter. -/
def formatterKey : String := "prettier"

/-- The manifest is a proper document with a configuration for the formatter. -/
def configuresFormatter (manifest : String) : Bool :=
  isDocument .full manifest.toList &&
    (match members? manifest.toList with
     | some ms => ms.any fun m => m.1 == formatterKey.toList
     | none => false)

end PackageRefs.Package
