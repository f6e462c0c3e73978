import AheadOfTime.System.Process

/-! # Utilities

    The programs of the system besides the shell.  A utility gets arguments and an
    environment, prints to its output, complains where messages go, and ends with a
    status.  What it prints is collected and written in larger parts. -/

namespace AheadOfTime

/-- What a utility keeps while it runs. -/
structure Utility.State where
  /-- The name it has been called by. -/
  name : Octets
  environment : List Octets
  output : Octets := ""
  status : Nat := 0

/-- A computation of a utility, which may end early. -/
abbrev Utility := ExceptT Unit (StateT Utility.State Task)

namespace Utility

/-- Makes a demand. -/
def ask (demand : Demand) : Utility demand.Answer :=
  ExceptT.lift (StateT.lift (Task.ask demand))

/-- Does a task. -/
def perform (task : Task α) : Utility α := ExceptT.lift (StateT.lift task)

/-- Writes what has been printed. -/
def flush : Utility Unit := do
  let s ← get
  unless s.output = "" do
    set { s with output := "" }
    discard (ask (.write 1 s.output))

/-- How much is printed before it is written. -/
def outputLimit : Nat := 4096

/-- Prints octets. -/
def print (octets : Octets) : Utility Unit := do
  modify fun s => { s with output := s.output ++ octets }
  if outputLimit ≤ (← get).output.utf8ByteSize then flush

/-- Prints a line. -/
def printLine (octets : Octets) : Utility Unit := print (octets ++ "\n")

/-- Sets the status that the utility ends with. -/
def setStatus (status : Nat) : Utility Unit := modify fun s => { s with status }

/-- Writes a line where messages go. -/
def writeMessage (message : Octets) : Utility Unit := do
  flush
  discard (ask (.write 2 (message ++ "\n")))

/-- Prints a complaint, which makes the status what it is for failures. -/
def complain (message : Octets) (status : Nat := 1) : Utility Unit := do
  writeMessage ((← get).name ++ ": " ++ message)
  setStatus status

/-- Ends with a status. -/
def exit (status : Nat) : Utility α := do
  setStatus status
  throw ()

/-- Prints a complaint and ends. -/
def fail (message : Octets) (status : Nat := 1) : Utility α := do
  complain message
  exit status

/-- Prints a complaint, says where help is to be had, and ends. -/
def failUse (message : Octets) (status : Nat := 1) : Utility α := do
  complain message
  writeMessage ("Try '" ++ (← get).name ++ " --help' for more information.")
  exit status

/-- A chunk of input; there is nothing in it at the end. -/
def readChunk (descriptor : Nat) : Utility (Except Refusal Octets) := do
  repeatUntil (.ok "") (fun () => do
    match ← ask (.read descriptor 65536) with
    | .error .interrupted => return .again ()
    | answer => return .done answer) ()

/-- Closes a descriptor. -/
def close (descriptor : Nat) : Utility Unit := discard (ask (.close descriptor))

/-- What is told about a file. -/
def statusAt (path : Octets) (follow : Bool) : Utility (Except Refusal FileStatus) :=
  ask (.statusAt path follow)

/-- What is told about a file, if there is one. -/
def statusAt? (path : Octets) (follow : Bool) : Utility (Option FileStatus) :=
  return (← statusAt path follow).toOption

/-- Whether a path leads to a directory. -/
def isDirectory (path : Octets) : Utility Bool :=
  return (← statusAt? path true).any (·.kind == .directory)

/-- The descriptor of a file that is opened for reading; a hyphen stands for the input. -/
def openInput (path : Octets) : Utility (Except Refusal Nat) :=
  if path = "-" then return .ok 0 else ask (.openFile path .input)

/-- What a file holds, or what is left of the input if the path is a hyphen. -/
def readInput (path : Octets) : Utility (Except Refusal Octets) := do
  match ← openInput path with
  | .error reason => return .error reason
  | .ok descriptor =>
    let answer ← perform (Task.readAll descriptor)
    if path ≠ "-" then close descriptor
    return answer

/-- The files that are named, or the input alone if there are none. -/
def inputs (operands : List Octets) : List Octets := if operands.isEmpty then ["-"] else operands

/-- The lines of a text without their ends. -/
def linesOf (text : Octets) : List Octets :=
  let lines := text.splitOn "\n"
  if lines.getLast? = some "" then lines.dropLast else lines

/-- The lines of a text with their ends, which the last one may lack. -/
def wholeLinesOf (text : Octets) : List Octets :=
  let lines := text.splitOn "\n"
  lines.dropLast.map (· ++ "\n") ++ (lines.getLast?.filter (· ≠ "")).toList

/-! ## Names in messages -/

/-- A name in quotes. -/
def quoted (name : Octets) : Octets :=
  if name.contains '\'' then "\"" ++ name ++ "\"" else "'" ++ name ++ "'"

/-- A name, in quotes if a shell needs them. -/
def quotedIfNeeded (name : Octets) : Octets :=
  let isPlain (c : Char) : Bool := c.isAlphanum || "%+,-./:@_".contains c || 127 < c.toNat
  if name ≠ "" && name.all isPlain then name else quoted name

/-- A name in typographic quotes. -/
def shown (name : Octets) : Octets := Octets.ofText "‘" ++ name ++ Octets.ofText "’"

/-! ## Options

    Options are letters behind a hyphen; they may stand anywhere among the other
    arguments, unless two hyphens have ended them. -/

/-- The options found, in order, with their arguments, and the other arguments. -/
structure Found where
  options : List (Char × Octets) := []
  operands : List Octets := []

/-- Whether an option was found. -/
def Found.has (f : Found) (letter : Char) : Bool := f.options.any fun option => option.1 == letter

/-- The last argument of an option. -/
def Found.value? (f : Found) (letter : Char) : Option Octets :=
  (f.options.reverse.find? fun option => option.1 == letter).map Prod.snd

/-- The options in an argument of letters, and the arguments behind it; in `letters` a
    colon stands behind those that take an argument. -/
def readLetters (letters : String) :
    List Char → List Octets → Except Octets (List (Char × Octets) × List Octets)
  | [], rest => .ok ([], rest)
  | c :: cs, rest =>
    match letters.toList.dropWhile (· ≠ c), cs, rest with
    | [], _, _ => .error ("invalid option -- '" ++ String.singleton c ++ "'")
    | _ :: ':' :: _, [], [] =>
      .error ("option requires an argument -- '" ++ String.singleton c ++ "'")
    | _ :: ':' :: _, [], value :: rest => .ok ([(c, value)], rest)
    | _ :: ':' :: _, cs, rest => .ok ([(c, String.ofList cs)], rest)
    | _, cs, rest => do
      let (more, rest) ← readLetters letters cs rest
      return ((c, "") :: more, rest)

/-- Reads the options among at most a number of arguments; if `isStrict`, the first
    argument that is no option ends them. -/
def Found.read (letters : String) (isStrict : Bool) :
    Nat → Found → List Octets → Except Octets Found
  | 0, found, arguments => .ok { found with operands := found.operands ++ arguments }
  | _, found, [] => .ok found
  | n + 1, found, argument :: rest =>
    match argument.toList with
    | ['-', '-'] => .ok { found with operands := found.operands ++ rest }
    | '-' :: c :: cs => do
      let (options, rest) ← readLetters letters (c :: cs) rest
      read letters isStrict n { found with options := found.options ++ options } rest
    | _ =>
      if isStrict then .ok { found with operands := found.operands ++ argument :: rest }
      else read letters isStrict n { found with operands := found.operands ++ [argument] } rest

/-- Reads the options of a utility; what is wrong with them ends it. -/
def readOptions (letters : String) (arguments : List Octets) (isStrict : Bool := false) :
    Utility Found := do
  match Found.read letters isStrict arguments.length {} arguments with
  | .ok found => return found
  | .error message => failUse message

/-- A complaint about too few arguments, and the end. -/
def failMissing : Utility α := failUse "missing operand"

/-- The process that a utility is. -/
def process (act : List Octets → Utility Unit) (argv environment : List Octets) : Process :=
  Task.run do
    let whole : Utility Unit := do
      try act (argv.drop 1) catch _ => pure ()
      flush
    let (_, s) ← whole.run.run { name := argv.headD "", environment }
    return s.status

end Utility

end AheadOfTime
