import AheadOfTime.System.Shell.Job

/-! # Signals and jobs

    The builtins that say what happens when a signal comes, send signals, and show and
    await jobs. -/

namespace AheadOfTime.Shell

namespace Script

/-- Tells the system what is to happen when a signal comes; one that was ignored when
    the script began stays so. -/
def setSignal (signal : Nat) : Script Unit := do
  let s ← get
  let isFixed ← match s.signals.lookup signal with
    | some isFixed => pure isFixed
    | none =>
      let action : SignalAction ← ask (.action signal)
      let isFixed := action == .ignore
      modify fun s => { s with signals := (signal, isFixed) :: s.signals }
      pure isFixed
  unless isFixed do
    let action := match s.traps.lookup signal with
      | none => SignalAction.default
      | some "" => if signal = Signal.child then .default else .ignore
      | some _ => .note
    discard (ask (.setAction signal action))

/-- Ignores a signal whatever the script says. -/
def ignoreSignal (signal : Nat) : Script Unit := do
  let _ ← ask (.setAction signal .ignore)
  modify fun s => { s with
    signals := (signal, true) :: s.signals.filter fun entry => entry.1 ≠ signal }

/-- Sets or removes the action on a signal. -/
def setTrap (signal : Nat) (action : Option Octets) : Script Unit := do
  modify fun s =>
    let others := s.traps.filter fun entry => entry.1 ≠ signal
    { s with traps := (action.map fun action => (signal, action)).toList ++ others }
  unless signal = 0 do setSignal signal

/-- Leaves the actions on signals to the shell that this one is a child of. -/
def resetTraps : Script Unit := do
  for (signal, action) in (← get).traps do
    unless action = "" do setTrap signal none

/-- Whether there are actions on signals. -/
def hasTraps : Script Bool := return (← get).traps.any fun entry => entry.2 ≠ ""

end Script

namespace Builtin

/-- Shows what signals lead to. -/
def showTraps : Script Unit := do
  for signal in List.range (Signal.greatest + 1) do
    if let some action := (← get).traps.lookup signal then
      Script.printLine ("trap -- " ++ Print.quotedWord action ++ " " ++ Signal.name signal)

/-- Sets what signals lead to, or the end of the script; a hyphen, a number in place of
    an action or none at all let them do again what they do. -/
def trap (arguments : List Octets) : Script Nat := do
  let (_, rest) ← Script.readOptions "" arguments
  match rest with
  | [] => showTraps; return 0
  | [name] => assign none [name]
  | action :: signals =>
    if Signal.isNumber action then assign none rest
    else assign (if action = "-" then none else some action) signals
where
  /-- Sets what the signals lead to. -/
  assign (action : Option Octets) : List Octets → Script Nat
    | [] => return 0
    | name :: later => match Signal.ofText? 0 name with
      | none => do
        Script.writeMessage ("trap: " ++ name ++ ": bad trap\n")
        return 1
      | some signal => do
        Script.setTrap signal action
        assign action later

/-- What `kill` says of its use. -/
def killUsage : Octets :=
  "Usage: kill [-s sigspec | -signum | -sigspec] [pid | job]... or\n" ++
    "kill -l [exitstatus]"

/-- Sends a signal to processes; the status says whether all were reached. -/
def sendTo (signal : Nat) (targets : List Octets) : Script Nat := do
  if targets.isEmpty then Script.stop killUsage
  let mut status := 0
  for target in targets do
    if let .error reason ← Script.ask (.signal (← Script.countOf target) signal) then
      Script.complain (reason.text ++ "\n")
      status := 1
  return status

/-- Sends a signal, which is named behind a hyphen. -/
def kill (arguments : List Octets) : Script Nat := do
  match arguments with
  | [] => Script.stop killUsage
  | first :: rest => match first.toList with
    | '-' :: name => match Signal.ofText? 1 (String.ofList name) with
      | some signal => sendTo signal rest
      | none => Script.stop ("Illegal option " ++ first)
    | _ => sendTo Signal.terminate arguments

/-- Shows jobs. -/
def jobs (arguments : List Octets) : Script Nat := do
  let (options, names) ← Script.readOptions "lp" arguments
  let last := options.getLast?.map Prod.fst
  let show_ (j : Job) : Script Unit :=
    Script.showJob (last == some 'l') (last == some 'p') j
  if names.isEmpty then
    Script.noteEnded none
    for j in (← get).jobs do
      show_ j
  else
    for name in names do
      show_ (← Script.jobNamed (some name))
  return 0

/-- Waits for processes or jobs, or for all of them. -/
def wait (arguments : List Octets) : Script Nat := do
  let (_, names) ← Script.readOptions "" arguments
  let interrupted : Script Nat := return 128 + (((← get).arrived.getLast?).getD 0)
  if names.isEmpty then
    let isOver ← Script.awaitUntil none do return (← get).jobs.all Job.isDone
    unless isOver do return ← interrupted
    modify fun s => { s with jobs := s.jobs.map fun j => { j with hasBeenAwaited := true } }
    return 0
  let mut status := 127
  for name in names do
    let job ← if name.startsWith "%" then pure (some (← Script.jobNamed (some name)))
      else do
        let n ← Script.countOf name
        pure ((← get).jobs.find? fun j => (j.processes.getLast?.map Prod.fst) == some n)
    if let some j := job then
      let isDone : Script Bool := return ((← Script.job? j.number).map Job.isDone).getD true
      unless ← Script.awaitUntil (some j.number) isDone do return ← interrupted
      Script.onJob j.number fun j => { j with hasBeenAwaited := true }
      status := ((← Script.job? j.number).map fun j => j.ending.status).getD 127
  return status

end Builtin

end AheadOfTime.Shell
