/-
# Exported names

The names under which other modules see what a module exports.  No two exports share one, and a
module has one default export.  Where types may be written this is not looked at, as one name may
stand for a value and a type.
-/
import PackageRefs.Script.DeclaredName
import PackageRefs.Script.Diagnostic
import PackageRefs.Script.Traversal

namespace PackageRefs.Script

/-- The name that a node between the braces of an export stands for, whether a word or a string. -/
def Tree.outwardName? : Tree → Option String
  | .node (.propertyName name) _ _ | .node (.identifier name) _ _ | .node (.string name _) _ _ =>
    some name
  | _ => none

/-- The names that an export gives to what it exports, but for the default export. -/
def Tree.outwardNames : Tree → List String
  | .node (.exportNamed _) _ (declaration :: specifiers :: _) =>
    declaration.declaredNames ++ specifiers.parts.filterMap fun s => (s.part 1).outwardName?
  | .node (.exportAll _) _ (name :: _) => name.outwardName?.toList
  | _ => []

/-- How many default exports a node makes. -/
def Tree.defaultExports (t : Tree) : Nat :=
  match t.label with
  | .exportDefault => 1
  | _ => t.outwardNames.count "default"

/-- The names that a list repeats, as often as it repeats them. -/
def repeatedNames : List String → List String → List String
  | _, [] => []
  | seen, name :: rest =>
    if seen.contains name then name :: repeatedNames seen rest
    else repeatedNames (name :: seen) rest

/-- The complaints about the names that a script exports. -/
def exportComplaints (program : Tree) : List Diagnostic :=
  let repeated := repeatedNames [] (program.gather Tree.outwardNames)
  let defaults := (program.gather fun t => [t.defaultExports]).foldl (· + ·) 0
  repeated.map Diagnostic.duplicateExport ++
    if defaults > 1 then [.duplicateDefaultExport] else []

end PackageRefs.Script
