import AheadOfTime.Fault
import AheadOfTime.System.Octets

/-! # Processes and their demands

    A process is a tree: it has ended, or it makes a demand on the system it runs in and
    goes on in a way that depends on the answer, or it starts a child.  It holds no state
    of the system, so it says the same whatever system it runs in.  A demand that can be
    refused is answered by a reason in that case.

    A task is a piece of a process that comes to a value: it is a process as soon as it is
    said how to go on with the value.  This makes long sequences of tasks no slower than
    short ones. -/

namespace AheadOfTime

/-- What a file is. -/
inductive FileKind where
  | regular
  | directory
  | link
  | fifo
  | device
  deriving DecidableEq, Repr

/-- What the system tells about a file.  Times are in microseconds, and `mode` holds the
    twelve permission bits. -/
structure FileStatus where
  inode : Nat
  kind : FileKind
  mode : Nat
  size : Nat
  links : Nat
  time : Nat
  deriving DecidableEq, Repr

/-- How a file is opened. -/
structure OpenMode where
  reads : Bool := false
  writes : Bool := false
  appends : Bool := false
  creates : Bool := false
  exclusive : Bool := false
  truncates : Bool := false
  permissions : Nat := 0o666
  deriving DecidableEq, Repr

namespace OpenMode

/-- For reading. -/
def input : OpenMode := { reads := true }

/-- For writing to a file that is emptied, or made. -/
def output : OpenMode := { writes := true, creates := true, truncates := true }

/-- For writing at the end of a file, which is made if there is none. -/
def append : OpenMode := { writes := true, creates := true, appends := true }

end OpenMode

/-- What a process wants to happen when a signal comes. -/
inductive SignalAction where
  | default
  | ignore
  /-- The signal is noted, and the process looks at it when it next asks. -/
  | note
  deriving DecidableEq, Repr

/-- How a process has ended. -/
inductive Ending where
  | exited (status : Nat)
  | killed (signal : Nat)
  deriving DecidableEq, Repr

/-- The status by which a shell tells how a process has ended. -/
def Ending.status : Ending → Nat
  | exited status => status
  | killed signal => 128 + signal

/-- What a process can ask of the system. -/
inductive Demand where
  /-- Takes a rest, and learns which noted signals have come since it last asked. -/
  | rest
  /-- Reads up to a number of octets; there are none at the end of what can be read. -/
  | read (descriptor count : Nat)
  | write (descriptor : Nat) (octets : Octets)
  | openFile (path : Octets) (mode : OpenMode)
  | close (descriptor : Nat)
  /-- Makes a new descriptor, at least as great as `least`, for what another one leads to. -/
  | duplicate (descriptor least : Nat) (closesOnExecution : Bool)
  | duplicateTo (descriptor target : Nat)
  /-- Makes a pipe and answers the descriptors of its ends, the one for reading first. -/
  | pipe
  | statusAt (path : Octets) (follow : Bool)
  /-- The names in a directory, those of the directory itself and the one above aside. -/
  | namesIn (path : Octets)
  | makeDirectory (path : Octets) (permissions : Nat)
  | removeDirectory (path : Octets)
  | removeFile (path : Octets)
  | rename (source target : Octets)
  | makeHardLink (source target : Octets)
  | makeLink (target path : Octets)
  | setPermissions (path : Octets) (permissions : Nat)
  /-- Sets the time of a file to the present one. -/
  | setTime (path : Octets)
  | changeDirectory (path : Octets)
  | workingDirectory
  /-- Sets the permissions that new files do not get, and answers the ones before. -/
  | setMask (mask : Nat)
  /-- Waits for a child to end, for any one if none is given; without `blocks` the
      answer comes at once and is none if no child has ended. -/
  | awaitChild (child : Option Nat) (blocks : Bool)
  | signal (process number : Nat)
  | setAction (number : Nat) (action : SignalAction)
  | action (number : Nat)
  /-- Sleeps a number of microseconds, unless a noted signal comes; answers whether it slept. -/
  | sleep (duration : Nat)
  /-- The number of the process and that of its parent. -/
  | identity
  /-- Goes on as another program; there is an answer only if that is refused. -/
  | execute (path : Octets) (argv environment : List Octets)

/-- What the system answers to a demand. -/
def Demand.Answer : Demand → Type
  | rest => List Nat
  | read _ _ => Except Refusal Octets
  | write _ _ => Except Refusal Unit
  | openFile _ _ => Except Refusal Nat
  | close _ => Except Refusal Unit
  | duplicate _ _ _ => Except Refusal Nat
  | duplicateTo _ _ => Except Refusal Unit
  | pipe => Nat × Nat
  | statusAt _ _ => Except Refusal FileStatus
  | namesIn _ => Except Refusal (List Octets)
  | makeDirectory _ _ => Except Refusal Unit
  | removeDirectory _ => Except Refusal Unit
  | removeFile _ => Except Refusal Unit
  | rename _ _ => Except Refusal Unit
  | makeHardLink _ _ => Except Refusal Unit
  | makeLink _ _ => Except Refusal Unit
  | setPermissions _ _ => Except Refusal Unit
  | setTime _ => Except Refusal Unit
  | changeDirectory _ => Except Refusal Unit
  | workingDirectory => Except Refusal Octets
  | setMask _ => Nat
  | awaitChild _ _ => Except Refusal (Option (Nat × Ending))
  | signal _ _ => Except Refusal Unit
  | setAction _ _ => Except Refusal Unit
  | action _ => SignalAction
  | sleep _ => Bool
  | identity => Nat × Nat
  | execute _ _ _ => Refusal

end AheadOfTime

namespace AheadOfTime

/-- What a process still does. -/
inductive Process where
  | ended (status : Nat)
  | asks (demand : Demand) (resume : demand.Answer → Process)
  /-- Starts a child and goes on with its number. -/
  | starts (child : Process) (resume : Nat → Process)

/-- A piece of a process that comes to a value. -/
def Task (α : Type) : Type := (α → Process) → Process

namespace Task

instance : Monad Task where
  pure a := fun resume => resume a
  bind task next := fun resume => task fun a => next a resume

instance : Inhabited (Task α) := ⟨fun _ => .ended 0⟩

/-- Makes a demand. -/
def ask (demand : Demand) : Task demand.Answer := fun resume => .asks demand resume

/-- Starts a child and answers its number. -/
def start (child : Process) : Task Nat := fun resume => .starts child resume

/-- Ends the process. -/
def exit (status : Nat) : Task α := fun _ => .ended status

/-- The process that does a task and ends. -/
def run (task : Task Nat) : Process := task .ended

/-- Reads all that can still be read from a descriptor. -/
def readAll (descriptor : Nat) : Task (Except Refusal Octets) := do
  repeatUntil (.ok "") (fun (text : Octets) => do
    match ← ask (.read descriptor 65536) with
    | .ok "" => return .done (.ok text)
    | .ok more => return .again (text ++ more)
    | .error .interrupted => return .again text
    | .error reason => return .done (.error reason)) ""

/-- Reads a whole file. -/
def readFile (path : Octets) : Task (Except Refusal Octets) := do
  match ← ask (.openFile path .input) with
  | .error reason => return .error reason
  | .ok descriptor =>
    let text ← readAll descriptor
    let _ ← ask (.close descriptor)
    return text

end Task

end AheadOfTime
