/-
# Building a bundle

The bundler is called once, with the entry in place, and the entry goes whatever comes of the call.
-/
import PackageRefs.Bundle.Entry
import PackageRefs.Machine.Program
import PackageRefs.Package.Lookup
import PackageRefs.Text.Line

namespace PackageRefs.Bundle

open PackageRefs.Disk PackageRefs.Package PackageRefs.Text

/-- The bundler. -/
def esbuild : Tool := ⟨"esbuild", "npm i -D esbuild"⟩

/-- What to bundle. -/
structure BundleRequest where
  packages : List String
  /-- the path of the bundle -/
  out : String := "bundle.js"
  minify : Bool := false
  deriving DecidableEq, Inhabited, Repr

/-- A bundle that was built. -/
structure BundleOutcome where
  out : String
  bytes : Nat
  minified : Bool
  deriving DecidableEq, Inhabited, Repr

/-! ## 1. The plan -/

/-- A package to bundle, with its installed version. -/
structure PlannedPackage where
  name : String
  version : String
  deriving DecidableEq, Inhabited, Repr

/-- The packages of a bundle with their versions. -/
def planBundle (disk : Disk) (lookup : Lookup) (packages : List String) : List PlannedPackage :=
  packages.map fun name => ⟨name, lookup.version disk name⟩

/-! ## 2. The call -/

/-- The name by which scripts reach the bundle. -/
def globalName : String := "VendorBundle"

/-- The arguments that bundle an entry for browsers into one script. -/
def bundlerArguments (entry out : String) (minify : Bool) : List String :=
  [entry, "--bundle", "--platform=browser", "--format=iife", "--global-name=" ++ globalName,
    outfileMark ++ out] ++ if minify then ["--minify"] else []

/-- The failure of a bundler that could not be started. -/
def startFailure (binary : String) : FileError → Failure
  | .notFound => .missingTool esbuild
  | error => .bundle ("could not run " ++ binary ++ ": " ++ error.message)

/-- The failure of a bundler that did not succeed. -/
def complaintFailure (output : Output) : Failure :=
  match trimmed output.complaint.toList with
  | [] => .bundle ("esbuild exited with exit status: " ++ toString (output.code % 256))
  | complaint => .bundle (String.ofList complaint)

/-- Calls the bundler, in a given way of running programs. -/
def callBundler (run : Running) (binary entry : String) (request : BundleRequest) (m : Machine) :
    Result Unit :=
  match run m ⟨binary, bundlerArguments entry request.out request.minify⟩ with
  | (.error e, m) => (.error (startFailure binary e), m)
  | (.ok output, m) =>
    if output.succeeded then (.ok (), m) else (.error (complaintFailure output), m)

/-! ## 3. The bundle -/

/-- The size of what the path leads to. -/
def sizeAt (disk : Disk) (path : String) : Except FileError Nat :=
  match disk.lookup path with
  | .ok (.file content _) => .ok content.length
  | .ok .directory => .ok 0
  | .error e => .error e

/-- The outcome of a call that went well. -/
def outcomeOf (request : BundleRequest) (m : Machine) : Except Failure BundleOutcome :=
  match sizeAt m.disk request.out with
  | .ok bytes => .ok ⟨request.out, bytes, request.minify⟩
  | .error e => .error (.file request.out e)

/-- Builds a bundle, with the entry in the directory and in a given way of running programs. -/
def buildBy (run : Running) (request : BundleRequest) (binary directory : String) (m : Machine) :
    Result BundleOutcome :=
  if request.packages.isEmpty then (.error (.bundle "no packages to bundle"), m)
  else
    match writeEntry directory request.packages m with
    | (.error e, m) => (.error e, m)
    | (.ok entry, m) =>
      let (called, m) := callBundler run binary entry request m
      let m := m.delete entry
      match called with
      | .error e => (.error e, m)
      | .ok () => (outcomeOf request m, m)

/-- Builds a bundle, with the entry in the directory. -/
def build (request : BundleRequest) (binary directory : String) (m : Machine) :
    Result BundleOutcome :=
  buildBy Machine.run request binary directory m

/-- Builds a bundle with the project's bundler. -/
def run (request : BundleRequest) (m : Machine) : Result BundleOutcome :=
  match m.locateTool esbuild.name "." with
  | none => (.error (.missingTool esbuild), m)
  | some binary => build request binary "." m

end PackageRefs.Bundle
