/-
# Running a command line

A command line is read, its operation is run, and its report is printed.  An operation that fails is
reported like any other and does not change the exit code.
-/
import PackageRefs.Command.Usage
import PackageRefs.Report.Text

namespace PackageRefs.Command

open PackageRefs.Package PackageRefs.Format PackageRefs.Bundle

/-- How output is shown. -/
structure Display where
  colour : Bool := false
  deriving DecidableEq, Inhabited, Repr

/-- What a run of the program shows, and the machine afterwards. -/
structure Run where
  code : Nat
  stdout : String := ""
  stderr : String := ""
  /-- The output ends with the time that the run took. -/
  timed : Bool := false
  machine : Machine

/-- The report of a result, or of its failure. -/
def reportOf {α : Type} (display : Display) (report : α → String) : Except Failure α → String
  | .ok a => report a
  | .error e => Report.failure display.colour e

/-- The last line of every report, given the milliseconds that the run took. -/
def lastLine (display : Display) (elapsed : String) : String :=
  "\n" ++ Report.bullet display.colour ++ " Finished in " ++
    Report.Ink.cyan.paint display.colour elapsed ++ "ms.\n"

/-- The whole output of a run that took so many milliseconds. -/
def Run.output (run : Run) (display : Display) (elapsed : String) : String :=
  if run.timed then run.stdout ++ lastLine display elapsed else run.stdout

/-- The complaint about a bundle of nothing. -/
def emptyBundle (display : Display) : String :=
  Report.cross display.colour ++ " No packages specified\n  " ++
    Report.Ink.dimmed.paint display.colour "usage:" ++
    " oxipack bundle <PACKAGES>... [-o <OUT>] [--minify]\n"

/-- The analysis of the file at a path. -/
def analyzeFile (m : Machine) (file : String) (threshold : Nat) : Except Failure Analysis :=
  (m.disk.readSource file).map fun source => analyze file source threshold

/-- Runs a command: what it reports, and the machine afterwards. -/
def Invocation.report (display : Display) (m : Machine) : Invocation → String × Machine
  | analyze file root threshold =>
    let lookup := Lookup.ofSearchPath root m.packagePath
    (reportOf display (Report.analysis display.colour lookup m.disk)
      (analyzeFile m file threshold), m)
  | remove file package force aggressive =>
    let request : RemovalRequest := ⟨file, package, force, aggressive⟩
    let (result, m) := request.run m
    (reportOf display (Report.removal display.colour request) result, m)
  | format file minify =>
    let (result, m) := FormatRequest.run ⟨file, minify⟩ m
    (reportOf display (Report.formatting display.colour) result, m)
  | bundle packages out minify =>
    let plan := planBundle m.disk (Lookup.ofSearchPath "." m.packagePath) packages
    let (result, m) := Bundle.run ⟨packages, out, minify⟩ m
    (Report.plan display.colour plan ++
      reportOf display (Report.bundle display.colour) result, m)

/-- Runs a command line that could not be read to its end. -/
def Stop.run (display : Display) (m : Machine) : Stop → Run
  | help spec => { code := 0, stdout := showPieces display.colour (helpPieces spec), machine := m }
  | noCommand =>
    { code := 2, stderr := showPieces display.colour (helpPieces programSpec), machine := m }
  | trouble spec cause given =>
    { code := 2, stderr := showPieces display.colour (troublePieces spec cause given), machine := m }

/-- Runs a command line. -/
def runCommandLine (display : Display) (m : Machine) (arguments : List String) : Run :=
  match readCommandLine arguments with
  | .error stop => stop.run display m
  | .ok (.bundle [] _ _) => { code := 1, stdout := emptyBundle display, machine := m }
  | .ok invocation =>
    let (report, m) := invocation.report display m
    { code := 0, stdout := report, timed := true, machine := m }

end PackageRefs.Command
