import AheadOfTime.Build.Run
import AheadOfTime.CommandLine.Arguments
import AheadOfTime.CommandLine.Usage

/-! # Running the command line

    The whole program as a function on the world: it parses its arguments, builds the
    request, and answers an exit status with what it prints.  With `--verbose` the
    command line of every tool call is printed first; then a problem and, for a failed
    tool, the command and its output; then the warnings.  The log is written whatever
    came of the build. -/

namespace AheadOfTime.CommandLine

/-- How the program ends: with an exit status, or by a fault nobody handles. -/
inductive Ending where
  | status (code : Nat)
  | fault (fault : Fault)
  deriving DecidableEq, Repr

/-- What the program prints and how it ends. -/
structure Outcome where
  ending : Ending
  stdout : String := ""
  stderr : String := ""
  deriving DecidableEq, Repr

/-- The path that an option has been given, if it has been given one. -/
def Given.path? : Option (Given Path) → Except Failure (Option Path)
  | none => .ok none
  | some (.value path) => .ok (some path)
  | some .nothing => .error (.fault .noPath)

/-- The request that the arguments ask for, on a machine of that name. -/
def Arguments.request (a : Arguments) (machine : String) : Except Failure Request := do
  let flags : KindFlags :=
    { dontLink := a.compileOnly, bundle := a.bundle, dylib := a.dylib, static := a.static }
  let fields ← (flags.applied {
    kind := ""
    inputs := a.files
    archs := match a.archs with
      | some (arch :: archs) => (arch :: archs).map Given.text
      | _ => [(Arch.ofMachine machine).name]
    frameworks := a.frameworks.map Given.text
    linkerFlags := a.linkerFlags
    verbose := a.verbose }).mapError Failure.problem
  let fields := { fields with output := ← Given.path? a.output, sdk := ← Given.path? a.sdk }
  match a.jobs with
  | .value jobs => (Request.ofFields { fields with jobs }).mapError Failure.problem
  | .nothing =>
    discard ((Request.target fields).mapError Failure.problem)
    throw (.fault .noNumber)

/-- A text with a line end after it, unless it is empty or has one. -/
def ended (s : String) : String :=
  if s = "" ∨ s.toList.getLast? = some '\n' then s else s ++ "\n"

/-- What is printed about a problem. -/
def problemText (p : Problem) : String :=
  let report := p.report
  "Error: " ++ report.text ++ "\n" ++
    match report.toolExit with
    | none => ""
    | some exit => "Command: " ++ Text.shellLine exit.command ++ "\n" ++ ended exit.output

/-- How the program ends after a build, and what it prints about the build's failure. -/
def endingOf : Except Failure α → Ending × String
  | .ok _ => (.status 0, "")
  | .error (.problem p) => (.status 1, problemText p)
  | .error (.fault f) => (.fault f, "")

/-- What is printed about a warning. -/
def noticeText (n : Notice) : String := "Warning: " ++ n.message ++ "\n"

/-- Writes the log to a file, whose directory is made if it is not there. -/
def writeLog (path : Path) : Build Unit := do
  Build.onDisk (Disk.makeDirectories path.parent)
  Build.onDisk (Disk.writeText path (← get).log.jsonLines)

/-- Builds what the arguments ask for. -/
def Arguments.build (a : Arguments) (host : Host) (env : Environment) (machine : String) :
    Build BuildResult := do
  let request ← Build.ofResult (a.request machine)
  let builder : Builder := {
    host
    toolchain := .ofEnvironment env
    locator := .search ((env.lookup "PATH").getD "") }
  builder.run request

/-- Builds what the arguments ask for, prints what there is to say, and writes the log. -/
def Arguments.run (a : Arguments) (host : Host) (env : Environment) (machine : String) :
    StateM World Outcome := do
  let result ← (a.build host env machine).run
  let w ← get
  let echo := if a.verbose then String.join (w.log.echoed.map (· ++ "\n")) else ""
  let (ending, failureText) := endingOf result
  let stderr := echo ++ failureText ++ String.join (w.notices.map noticeText)
  match a.logFile with
  | none => return { ending, stderr }
  | some .nothing => return { ending := .fault .noPath, stderr }
  | some (.value path) => match ← (writeLog path).run with
    | .ok () => return { ending, stderr }
    | .error (.fault fault) => return { ending := .fault fault, stderr }
    | .error (.problem _) => return { ending, stderr }

/-- The program. -/
def run (host : Host) (env : Environment) (machine : String) (argv : List String) :
    StateM World Outcome :=
  match Arguments.parse argv with
  | .ok arguments => arguments.run host env machine
  | .error .help => return { ending := .status 0, stdout := helpText }
  | .error .version => return { ending := .status 0, stdout := versionText }
  | .error (.refused e) => return { ending := .status 2, stderr := e.text }

end AheadOfTime.CommandLine
