import AheadOfTime.System.Shell.Variables

/-! # Jobs

    The processes that a script has started, in jobs of one or more of them, and waiting
    for them to end. -/

namespace AheadOfTime.Shell

namespace Job

/-- Whether all processes of a job have ended. -/
def isDone (j : Job) : Bool := j.processes.all fun entry => entry.2.isSome

/-- How the last process of a job has ended. -/
def ending (j : Job) : Ending := (j.processes.getLast?.bind Prod.snd).getD (.exited 0)

end Job

namespace Script

/-- Notes the signals that have come. -/
def collectSignals : Script Unit := do
  let noted ← ask .rest
  unless noted.isEmpty do
    modify fun s => { s with
      arrived := s.arrived ++ noted.filter fun signal => !s.arrived.contains signal }

/-- Changes a job. -/
def onJob (number : Nat) (f : Job → Job) : Script Unit := modify fun s => { s with
  jobs := s.jobs.map fun j => if j.number = number then f j else j }

/-- The job with a number. -/
def job? (number : Nat) : Script (Option Job) :=
  return (← get).jobs.find? fun j => j.number == number

/-- Forgets a job. -/
def forgetJob (number : Nat) : Script Unit := modify fun s => { s with
  jobs := s.jobs.filter fun j => j.number ≠ number }

/-- Makes a job without processes, which is the present one, and answers its number: the
    least one that is not in use, or whose job is over and has been waited for. -/
def newJob : Script Nat := do
  let s ← get
  let isTaken (n : Nat) : Bool :=
    s.jobs.any fun j => j.number == n && !(j.isDone && j.hasBeenAwaited)
  let numbers := (List.range (s.jobs.length + 1)).map (· + 1)
  let number := (numbers.find? fun n => !isTaken n).getD 1
  forgetJob number
  modify fun s => { s with jobs := { number } :: s.jobs }
  return number

/-- Notes a process of a job. -/
def addProcess (number process : Nat) : Script Unit :=
  onJob number fun j => { j with processes := j.processes ++ [(process, none)] }

/-- Puts a job in front of the others. -/
def makePresent (number : Nat) : Script Unit := modify fun s => { s with
  jobs := s.jobs.filter (·.number == number) ++ s.jobs.filter (·.number != number) }

/-- Notes how a process has ended; if a signal has ended one of the job that is
    `awaited`, that is told. -/
def noteEnding (awaited : Option Nat) (process : Nat) (ending : Ending) : Script Unit := do
  let holds (j : Job) : Bool := !j.isDone && j.processes.any fun entry => entry.1 == process
  if let some j := (← get).jobs.find? holds then
    onJob j.number fun j => { j with processes := j.processes.map fun entry =>
      if entry.1 = process then (process, some ending) else entry }
    if awaited = some j.number then
      if let .killed signal := ending then
        unless signal = Signal.interrupt || signal = Signal.pipe do
          writeMessage (((Signal.text signal).take 31).toString ++ "\n")

/-- Notes which processes have ended, without waiting. -/
def noteEnded (awaited : Option Nat) : Script Unit := do
  unless (← get).jobs.all Job.isDone do
    repeatUntil () (fun () => do
      match ← ask (.awaitChild none false) with
      | .ok (some (process, ending)) =>
        noteEnding awaited process ending
        return .again ()
      | _ => return .done ()) ()

/-- Waits until a job is over, whatever signals come; answers its status and forgets it. -/
def awaitJob (number : Nat) : Script Nat := do
  let status ← repeatUntil 0 (fun () => do
    match ← job? number with
    | none => return .done 0
    | some j =>
      if j.isDone then return .done j.ending.status
      match ← ask (.awaitChild none true) with
      | .ok (some (process, ending)) =>
        noteEnding (some number) process ending
        return .again ()
      | .ok none => return .again ()
      | .error .interrupted =>
        collectSignals
        return .again ()
      | .error _ => return .done 0) ()
  noteEnded (some number)
  forgetJob number
  return status

/-- Waits until something holds of the jobs; answers whether no signal has come before. -/
def awaitUntil (awaited : Option Nat) (holds : Script Bool) : Script Bool :=
  repeatUntil true (fun () => do
    if ← holds then return .done true
    match ← ask (.awaitChild none false) with
    | .ok (some (process, ending)) =>
      noteEnding awaited process ending
      return .again ()
    | .error .noChild => return .done true
    | _ =>
      collectSignals
      unless (← get).arrived.isEmpty do return .done false
      match ← ask (.awaitChild none true) with
      | .ok (some (process, ending)) =>
        noteEnding awaited process ending
        return .again ()
      | .error .interrupted =>
        collectSignals
        return .done false
      | _ => return .done true) ()

/-- The job that a text names behind a percent sign, or the present one. -/
def jobNamed (name : Option Octets) : Script Job := do
  let jobs := (← get).jobs
  let orStop (message : Octets) (j : Option Job) : Script Job :=
    match j with
    | some j => return j
    | none => stop message
  let shown := name.getD "(null)"
  let missing : Octets := "No such job: " ++ shown
  match shown.toList with
  | '%' :: rest =>
    match rest with
    | [] | ['+'] | ['%'] => orStop "No current job" jobs.head?
    | ['-'] => orStop "No previous job" (jobs.drop 1).head?
    | rest => match Number.decimal? rest with
      | some n => orStop missing (jobs.find? (·.number == n))
      | none =>
        let isMeant := rest == ['?']
        let found := if isMeant then jobs else []
        if 1 < found.length then stop (shown ++ ": ambiguous") else orStop missing found.head?
  | _ => if name.isNone then orStop "No current job" jobs.head? else stop missing

/-- What is said of a job. -/
def jobState (j : Job) : Octets :=
  if !j.isDone then "Running"
  else match j.ending with
    | .exited 0 => "Done"
    | .exited status => "Done(" ++ toString status ++ ")"
    | .killed signal => ((Signal.text signal).take 31).toString

/-- Shows a job: only the number of its first process, or its state, perhaps with the
    numbers of all processes. -/
def showJob (withNumbers onlyNumber : Bool) (j : Job) : Script Unit := do
  let numbers := j.processes.map fun entry => toString entry.1
  if onlyNumber then printLine (numbers.headD "")
  else
    let jobs := (← get).jobs
    let sign :=
      if jobs.head?.any (·.number == j.number) then "+"
      else if (jobs.drop 1).head?.any (·.number == j.number) then "-" else " "
    let label := "[" ++ toString j.number ++ "] " ++ sign ++ " "
    let start := label ++ (if withNumbers then numbers.headD "" ++ " " else "") ++ jobState j
    let filled (text : Octets) (width : Nat) : Octets :=
        text.pushn ' ' (max 1 (width - text.length))
    let more := numbers.drop 1
    if withNumbers then
      let lines := more.map fun n => " |\n" ++ "".pushn ' ' label.length ++ n ++ " "
      print (filled start 33 ++
        String.join (lines.map fun line => filled line (33 + 3)) ++ "\n")
    else print (filled start 33 ++ String.join (more.map fun _ => " | ") ++ "\n")
  if j.isDone then forgetJob j.number

end Script

end AheadOfTime.Shell
