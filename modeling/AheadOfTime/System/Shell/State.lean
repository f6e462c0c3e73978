import AheadOfTime.System.Process
import AheadOfTime.System.Signal
import AheadOfTime.System.Shell.Lexer
import AheadOfTime.System.Shell.Options
import AheadOfTime.System.Number

/-! # The state of a shell

    What a running script reads and changes, and the computations that it is made of.  A
    computation may make demands on the system, and it may break off: on an error, or
    since the script has ended. -/

namespace AheadOfTime.Shell

/-- A variable: its value, if it has one, whether programs see it, whether it is never
    to change, and whether it stays known when it loses its value. -/
structure Variable where
  value : Option Octets := none
  isExported : Bool := false
  isReadOnly : Bool := false
  isKept : Bool := false
  deriving DecidableEq, Repr

/-- What a function's end puts back. -/
inductive Saved where
  | variable (name : Octets) (before : Option Variable)
  | options (before : Options)

/-- What commands are passed over for. -/
inductive Skip where
  /-- A number of loops is left. -/
  | leave (loops : Nat)
  /-- A number of loops but one is left, and that one goes on. -/
  | again (loops : Nat)
  /-- A function or file is left. -/
  | finish
  /-- The same, without a status of its own. -/
  | finishAsIs
  deriving DecidableEq, Repr

/-- What a name stands for that has been looked up before. -/
structure Hashed where
  /-- The place in the search path at which a program lies; a builtin has none. -/
  place : Option Nat
  /-- Whether the working directory has changed since then. -/
  isStale : Bool := false
  deriving DecidableEq, Repr

/-- A job: its number, its processes in order with how they have ended, and whether
    somebody has waited for it. -/
structure Job where
  number : Nat
  processes : List (Nat × Option Ending) := []
  hasBeenAwaited : Bool := false
  deriving DecidableEq, Repr

/-- Where the options of a script's parameters are being read: the number of the next
    parameter, and how much of the one before has been read, if anything is left of it. -/
structure OptionPlace where
  index : Nat := 1
  offset : Option Nat := none
  deriving DecidableEq, Repr

/-- What a running script reads and changes. -/
structure State where
  name : Octets := "sh"
  /-- The builtin that is at work. -/
  commandName : Option Octets := none
  line : Nat := 0
  /-- The line up to which the script has been read. -/
  readLine : Nat := 1
  bindings : List (Octets × Variable) := []
  functions : List (Octets × Command) := []
  hashed : List (Octets × Hashed) := []
  aliases : List (Octets × Octets) := []
  documents : List (Nat × HereDocument) := []
  nextDocument : Nat := 0
  parameters : List Octets := []
  optionPlace : OptionPlace := {}
  status : Nat := 0
  /-- The status of the last substitution in the words of the present command. -/
  substituted : Nat := 0
  /-- The status that the end of an action on a signal brings back. -/
  savedStatus : Option Nat := none
  number : Nat := 0
  lastBackground : Option Nat := none
  jobs : List Job := []
  options : Options := {}
  /-- Actions on signals; zero stands for the end of the script. -/
  traps : List (Nat × Octets) := []
  /-- The signals that the script has dealt with, and whether they stay ignored whatever it says. -/
  signals : List (Nat × Bool) := []
  /-- The signals that have come and whose actions are still to be run. -/
  arrived : List Nat := []
  skip : Option Skip := none
  loops : Nat := 0
  depth : Nat := 0
  frames : List (List Saved) := []
  /-- Whether this is a subshell. -/
  isInner : Bool := false
  output : Octets := ""
  /-- Whether some of the output could not be written. -/
  hasLostOutput : Bool := false
  /-- The descriptor on which commands are shown before they are run. -/
  traceDescriptor : Nat := 2
  isTracing : Bool := false
  /-- Where descriptors led before they were redirected; those that are not there were closed. -/
  redirected : List (List (Nat × Option Nat)) := []
  /-- The working directory as the script sees it, and as it is. -/
  directory : Option Octets := none
  physicalDirectory : Octets := ""

/-- Why a computation breaks off. -/
inductive Jump where
  /-- An error, whose status has been set. -/
  | error
  /-- The script is to end. -/
  | exit
  /-- The last command of a process has been run. -/
  | ended
  deriving DecidableEq, Repr

/-- A computation of a script. -/
abbrev Script := ExceptT Jump (StateT State Task)

namespace Script

/-- Makes a demand. -/
def ask (demand : Demand) : Script demand.Answer :=
  ExceptT.lift (StateT.lift (Task.ask demand))

/-- Puts a status in place of the last command's one. -/
def setStatus (status : Nat) : Script Unit := modify fun s => { s with status }

/-- Writes what has been printed. -/
def flush : Script Unit := do
  let s ← get
  unless s.output = "" do
    set { s with output := "" }
    if let .error _ ← ask (.write 1 s.output) then
      modify fun s => { s with hasLostOutput := true }

/-- How much is printed before it is written. -/
def outputLimit : Nat := 8192

/-- Prints octets. -/
def print (octets : Octets) : Script Unit := do
  modify fun s => { s with output := s.output ++ octets }
  if outputLimit < (← get).output.utf8ByteSize then flush

/-- Prints a line. -/
def printLine (octets : Octets) : Script Unit := print (octets ++ "\n")

/-- Writes octets where messages go. -/
def writeMessage (octets : Octets) : Script Unit := discard (ask (.write 2 octets))

/-- Prints a message with the script, the line and the builtin that it comes from. -/
def complain (message : Octets) : Script Unit := do
  let s ← get
  let label := match s.commandName with
    | some command => command ++ ": "
    | none => ""
  writeMessage (s.name ++ ": " ++ toString s.line ++ ": " ++ label ++ message ++ "\n")

/-- Prints a message and breaks off with a status. -/
def stopWith (status : Nat) (jump : Jump) (message : Octets) : Script α := do
  setStatus status
  complain message
  flush
  throw jump

/-- Prints a message and breaks off. -/
def stop (message : Octets) : Script α := stopWith 2 .error message

/-- Breaks off since a text is no number that can be used. -/
def stopAtNumber (text : Octets) : Script α := stop ("Illegal number: " ++ text)

/-- The whole number that a text writes in base ten. -/
def integerOf (text : Octets) : Script Int := do
  match Number.decimalInteger? text.toList with
  | some n => return n
  | none => stopAtNumber text

/-- The greatest number of 32 bits with a sign. -/
def greatestCount : Nat := Nat.pow 2 31 - 1

/-- The natural number that a text writes in base ten. -/
def countOf (text : Octets) : Script Nat := do
  let n ← integerOf text
  if n < 0 ∨ greatestCount < n then stopAtNumber text else return n.toNat

/-- Whether an option is set. -/
def has (letter : Char) : Script Bool := return (← get).options.has letter

/-- The words for a refusal, with what they are where nothing is found. -/
def refusalText (absence : String) (reason : Refusal) : Octets :=
  if reason == .noEntry || reason == .notDirectory then absence else reason.text

/-- The process that does what a script says and ends with its status. -/
def process (act : Script Unit) (s : State) : Process :=
  Task.run do
    let (_, s) ← act.run.run s
    return s.status % 256

/-- Starts a child that does what a script says, and answers its number. -/
def start (act : Script Unit) : Script Nat := do
  let s ← get
  ExceptT.lift (StateT.lift (Task.start (process act s)))

/-- Ends the process at once. -/
def exit (status : Nat) : Script α := ExceptT.lift (StateT.lift (Task.exit (status % 256)))

/-- Runs `act`, and `after` when it has ended or broken off. -/
def andThen (act : Script α) (after : Script Unit) : Script α := do
  let result ← try
      let a ← act
      pure (Except.ok a)
    catch jump => pure (Except.error jump)
  after
  match result with
  | .ok a => return a
  | .error jump => throw jump

/-- Reads the options at the start of arguments, as letters with the texts that some of
    them take; answers them and the other arguments. -/
def readOptions (letters : String) (arguments : List Octets) :
    Script (List (Char × Octets) × List Octets) := do
  let (found, rest) ← repeatUntil ([], arguments)
    (fun (found, arguments) => do
      match arguments with
      | [] => return .done (found, [])
      | argument :: rest =>
        if argument = "--" then return .done (found, rest)
        match argument.toList with
        | '-' :: c :: cs =>
          let (more, rest) ← lettersOf (c :: cs) rest
          return .again (found ++ more, rest)
        | _ => return .done (found, argument :: rest)) ([], arguments)
  return (found, rest)
where
  /-- The options in an argument, and the arguments behind it. -/
  lettersOf : List Char → List Octets → Script (List (Char × Octets) × List Octets)
    | [], rest => return ([], rest)
    | c :: cs, rest => do
      match letters.toList.dropWhile fun other => other ≠ c || c = ':' with
      | [] => stop ("Illegal option -" ++ String.singleton c)
      | _ :: ':' :: _ =>
        match cs, rest with
        | [], [] => stop ("No arg for -" ++ String.singleton c ++ " option")
        | [], value :: rest => return ([(c, value)], rest)
        | cs, rest => return ([(c, String.ofList cs)], rest)
      | _ =>
        let (more, rest) ← lettersOf cs rest
        return ((c, "") :: more, rest)

end Script

end AheadOfTime.Shell
