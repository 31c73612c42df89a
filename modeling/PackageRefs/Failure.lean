/-
# What can go wrong

Every operation on a workspace either gives a result or fails for one of these reasons.  The reason
is data; `message` words it for people and `hint` says what could be done about it.
-/
import PackageRefs.Disk.Basic

namespace PackageRefs

open PackageRefs.Disk

/-- An external tool: the name under which it is looked for, and how it is installed. -/
structure Tool where
  name : String
  installHint : String
  deriving DecidableEq, Repr, Inhabited

/-- Why an operation failed. -/
inductive Failure where
  /-- there is nothing at the path -/
  | missingFile (path : String)
  /-- the script could not be read -/
  | unreadable (path complaint : String)
  /-- a step that makes one text from another gave up -/
  | transform (step complaint : String) (hint : Option String)
  | bundle (complaint : String)
  /-- the tool is nowhere to be found -/
  | missingTool (tool : Tool)
  | file (path : String) (error : FileError)
  deriving DecidableEq, Inhabited

namespace Failure

/-- The wording of a failure. -/
def message : Failure → String
  | missingFile path => "File not found: " ++ path
  | unreadable path complaint => "Failed to parse " ++ path ++ ": " ++ complaint
  | transform step complaint _ => step ++ " failed: " ++ complaint
  | bundle complaint => "Bundling failed: " ++ complaint
  | missingTool tool => "Required tool missing: " ++ tool.name
  | file path error => "I/O error on " ++ path ++ ": " ++ error.message

/-- What to do about a failure, where something is known. -/
def hint : Failure → Option String
  | transform _ _ hint => hint
  | missingTool tool => some tool.installHint
  | _ => none

end Failure

end PackageRefs
