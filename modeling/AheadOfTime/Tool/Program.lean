import AheadOfTime.System.Run
import AheadOfTime.System.Utility.Catalog
import AheadOfTime.Text.Split
import AheadOfTime.Tool.Call
import AheadOfTime.Toolchain.Basic

/-! # Tools that are programs

    The toolset in which every call runs the program file that its first argument names,
    on a machine that holds the files.  What a program prints is read as UTF-8, with
    every line end written as a line feed.

    This toolset, with the modules under `System` that it is made of, serves to run builds
    with tools that are small scripts.  What is proved is about tools of any kind, so
    nothing else depends on it. -/

namespace AheadOfTime.Toolset

/-- Where tools are looked for if the environment does not say. -/
def usualSearchPath : String := "/bin:/usr/bin"

/-- The variables that every tool finds in its environment. -/
def usualEnvironment : Environment := [("LANG", "C.UTF-8"), ("HOME", "/root")]

/-- The environment as a process gets it. -/
def assignments (environment : Environment) : List Octets :=
  let usual := usualEnvironment.filter fun entry => (environment.lookup entry.1).isNone
  (usual ++ environment).map fun (name, value) => Octets.ofText (name ++ "=" ++ value)

/-- The program that a command names, on a machine whose first process asks for it.  Of
    several places to look at, the first one that holds a program counts; if there is
    none, the first reason that is no absence counts for most. -/
def findProgram (m : Machine) (searchPath : Octets) (argv : List Octets) : Except Refusal Image :=
  let directory := (m.slots.head?.map Slot.directory).getD Volume.root
  let tried := (Image.candidates searchPath (argv.headD "")).map fun path =>
    Image.find m.volume directory Image.interpreterLimit path argv
  match tried.findSome? Except.toOption with
  | some image => .ok image
  | none =>
    let reasons := tried.filterMap fun
      | .error reason => some reason
      | .ok _ => none
    let found := (reasons.find? fun reason => !Image.isAbsence reason).or reasons.getLast?
    .error (found.getD .noEntry)

/-- How a process has ended, as a number: that of a signal counts below zero. -/
def statusOf : Ending → Int
  | .exited status => status
  | .killed signal => -signal

/-- What comes of a command, and the files it leaves. -/
def runCommand (environment : Environment) (argv : List String) (files : FileTree) :
    Reply × FileTree :=
  if argv.any fun argument => argument.toList.contains '\x00' then (.failed .nullByte, files)
  else
    let m := Machine.start Utility.Catalog.load files (.ended 0)
    let searchPath := Octets.ofText ((environment.lookup "PATH").getD usualSearchPath)
    match findProgram m searchPath (argv.map Octets.ofText) with
    | .error .noEntry => (.missing, files)
    | .error reason => (.failed (.refused reason (argv.headD "")), files)
    | .ok image =>
      let process :=
        (m.load image.program image.argv (assignments environment)).getD (.ended 127)
      let m := (m.changeSlot Machine.firstNumber fun s => { s with process }).run
      let text := Text.unifyNewlines (Octets.toText m.output).toList
      let status := (m.ending?.map statusOf).getD (-9)
      (.exited status (String.ofList text), m.volume.toTree files.workingDirectory)

/-- The tools that an environment offers. -/
def ofPrograms (environment : Environment) : Toolset := fun _ call files =>
  runCommand environment call.argv files

end AheadOfTime.Toolset
