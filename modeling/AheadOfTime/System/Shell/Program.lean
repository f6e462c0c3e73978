import AheadOfTime.System.Shell.Evaluate
import AheadOfTime.System.Shell.Options

/-! # The shell as a program

    What a shell does from its start to its end: it takes over the environment, reads
    its arguments, and runs what they ask for. -/

namespace AheadOfTime.Shell

namespace Script

/-- Takes a variable over from the environment, if the text is one. -/
def importVariable (text : Octets) : Script Unit := do
  let (name, value) := splitAssignment text
  if isName name && value.isSome then put name { value, isExported := true }

/-- Finds out where the shell is: under the path that the environment names if that is right. -/
def findDirectory : Script Unit := do
  let path ← valueOf? "PWD"
  let isRight ← match path with
    | none => pure false
    | some path => do
      match ← ask (.statusAt path true), ← ask (.statusAt "." true) with
      | .ok there, .ok here => pure (path.startsWith "/" && there.inode == here.inode)
      | _, _ => pure false
  Builtin.noteDirectory (if isRight then path else none)

/-- Sets up what a shell starts with. -/
def setUp (environment : List Octets) : Script Unit := do
  let (number, parent) ← ask .identity
  modify fun s => { s with number, bindings := Variable.initial }
  for text in environment do
    importVariable text
  put "IFS" { value := some Variable.defaultSeparators }
  put "OPTIND" { value := some "1" }
  put "PPID" { value := some (toString parent) }
  findDirectory

/-- Runs what the shell has been called for. -/
def runErrand (name : Octets) (arguments : List Octets) : Script Unit := do
  match Invocation.ofArguments name arguments with
  | .error message => stop message
  | .ok invocation =>
    let isMonitor := invocation.options.has 'm'
    if isMonitor then complain "can't access tty; job control turned off"
    modify fun s => { s with options := invocation.options.turn 'm' false }
    let begin_ : Script Unit := modify fun s => { s with
      name := invocation.name, parameters := invocation.parameters }
    match invocation.errand with
    | .command text =>
      begin_
      discard (runText run false text)
      if invocation.options.has 's' then discard (runSource run 0)
    | .file path =>
      let descriptor ← openScript path
      begin_
      modify fun s => { s with name := path }
      discard (runSource run descriptor)
    | .input =>
      begin_
      discard (runSource run 0)

end Script

/-- The process that a shell is, from its arguments and the environment. -/
def process (argv environment : List Octets) : Process :=
  let name := argv.headD ""
  let act : Script Unit := Script.runProcess Script.run do
    Script.setUp environment
    Script.runErrand name (argv.drop 1)
  Script.process act { name }

end AheadOfTime.Shell
