/-
# Dialects

What the reader of a script has to know beforehand: whether types may be written, whether markup
may be written, and whether the script is a module.
-/

namespace PackageRefs.Script

/-- A dialect of the language. -/
structure Dialect where
  typescript : Bool
  jsx : Bool
  isModule : Bool
  deriving DecidableEq, Inhabited, Repr

end PackageRefs.Script
