import AheadOfTime.System.Machine
import AheadOfTime.System.Image

/-! # Answering demands

    What a machine answers to the demands of its processes, and what becomes of the
    machine.  A demand that cannot be answered yet has no answer: the process waits, and
    asks again when something has changed. -/

namespace AheadOfTime

/-- A machine and the process it works for. -/
structure Desk where
  machine : Machine
  slot : Slot

/-- A computation on a machine for one of its processes. -/
abbrev Service := StateM Desk

namespace Service

/-- The time of the process. -/
def now : Service Nat := return (← get).slot.time

/-- Changes the machine. -/
def onMachine (f : Machine → Machine) : Service Unit :=
  modify fun d => { d with machine := f d.machine }

/-- Changes what is kept for the process. -/
def onSlot (f : Slot → Slot) : Service Unit := modify fun d => { d with slot := f d.slot }

/-- Lets waiting processes look again. -/
def wakeOthers : Service Unit := do
  let now ← now
  onMachine fun m => m.wake now

/-- An operation on the volume, seen from the working directory. -/
def onVolume (act : Volume → (now here : Nat) → Except Refusal Volume) :
    Service (Except Refusal Unit) := do
  let d ← get
  match act d.machine.volume d.slot.time d.slot.directory with
  | .ok volume => onMachine fun m => { m with volume }; return .ok ()
  | .error reason => return .error reason

/-- A question to the volume, seen from the working directory. -/
def fromVolume (ask : Volume → (here : Nat) → Except Refusal α) : Service (Except Refusal α) :=
  return ask (← get).machine.volume (← get).slot.directory

/-- Lets the least free descriptor from a number on lead to an open file. -/
def connect (file least : Nat) (closesOnExecution : Bool) : Service Nat := do
  let n := (← get).slot.freeFrom least
  onSlot fun s => s.setDescriptor n (some ⟨file, closesOnExecution⟩)
  return n

/-- Adds an open file. -/
def addFile (file : OpenFile) : Service Nat := do
  let n := (← get).machine.files.size
  onMachine fun m => { m with files := m.files.push file }
  return n

/-- Changes an open file. -/
def onFile (n : Nat) (f : OpenFile → OpenFile) : Service Unit :=
  onMachine fun m => { m with files := m.files.modify n f }

/-- Changes a pipe. -/
def onPipe (n : Nat) (f : Pipe → Pipe) : Service Unit :=
  onMachine fun m => { m with pipes := m.pipes.modify n f }

/-- The pipe into which all processes write what is kept of them in the end. -/
def outputPipe : Nat := 0

/-- What a signal does to a process. -/
def deliver (signal : Nat) (now : Nat) (s : Slot) : Slot :=
  if s.hasEnded || signal = 0 then s
  else
    let action := if Signal.fixed.contains signal then .default else s.action signal
    match action with
    | .ignore =>
      if signal = Signal.goOn ∧ s.standing = .halted then { s with standing := .ready } else s
    | .default =>
      if Signal.halting.contains signal then { s with standing := .halted }
      else if signal = Signal.goOn then
        if s.standing = .halted then { s with standing := .ready } else s
      else if Signal.harmless.contains signal then s
      else { s.finish (.killed signal) with time := max s.time now }
    | .note =>
      let s := { s with noted := if s.noted.contains signal then s.noted else s.noted ++ [signal] }
      match s.standing with
      | .waiting | .sleeping _ => { s with standing := .ready, time := now + 30 }
      | .halted => if signal = Signal.goOn then { s with standing := .ready } else s
      | _ => s

/-- Sends a signal; the processes that the machine does not hold itself are there, but
    no signal does anything to them. -/
def send (process signal : Nat) : Service (Except Refusal Unit) := do
  let d ← get
  let others := d.machine.slots.filter fun s => s.number ≠ d.slot.number
  if [Machine.keeper, Machine.starter].contains process then return .ok ()
  if d.slot.number ≠ process && !others.any (·.number == process) then return .error .noProcess
  let reach (s : Slot) : Slot :=
    if s.number = process then deliver signal d.slot.time s else s
  onMachine fun m => { m with slots := m.slots.map reach }
  onSlot reach
  wakeOthers
  return .ok ()

/-- Reads from an open file. -/
def readFile (index : Nat) (file : OpenFile) (count : Nat) :
    Service (Option (Except Refusal Octets)) := do
  let d ← get
  if !file.reads then return some (.error .badDescriptor)
  match file.channel with
  | .file n =>
    if d.machine.volume.isDirectory n then return some (.error .isDirectory)
    let text := d.machine.volume.readAt n file.offset count
    onFile index fun f => { f with offset := f.offset + text.length }
    return some (.ok text)
  | .readEnd p =>
    let pipe := d.machine.pipes[p]?.getD default
    if count = 0 then return some (.ok "")
    if pipe.size = 0 then
      if d.machine.isOpen d.slot (.writeEnd p) then return none else return some (.ok "")
    let (text, pipe) := pipe.take count
    onPipe p fun _ => pipe
    wakeOthers
    return some (.ok text)
  | .writeEnd _ => return some (.error .badDescriptor)
  | .device .zero | .device .full => return some (.ok ("".pushn '\x00' count))
  | .device _ => return some (.ok "")

/-- Writes to an open file. -/
def writeFile (index : Nat) (file : OpenFile) (octets : Octets) :
    Service (Option (Except Refusal Unit)) := do
  let d ← get
  if !file.writes then return some (.error .badDescriptor)
  match file.channel with
  | .file n =>
    let offset := if file.appends then (d.machine.volume.statusOf n).size else file.offset
    onMachine fun m => { m with volume := m.volume.writeAt d.slot.time n offset octets }
    onFile index fun f => { f with offset := offset + octets.length }
    return some (.ok ())
  | .writeEnd p =>
    if p = outputPipe then
      onPipe p fun pipe => pipe.put octets
      return some (.ok ())
    if !d.machine.isOpen d.slot (.readEnd p) then
      let _ ← send d.slot.number Signal.pipe
      return some (.error .brokenPipe)
    let pipe := d.machine.pipes[p]?.getD default
    if 0 < pipe.size ∧ Pipe.capacity < pipe.size + octets.length then return none
    onPipe p fun pipe => pipe.put octets
    wakeOthers
    return some (.ok ())
  | .readEnd _ => return some (.error .badDescriptor)
  | .device .full => return some (.error .noSpace)
  | .device _ => return some (.ok ())

/-- Opens the file with a number. -/
def openInode (n : Nat) (mode : OpenMode) : Service (Option (Except Refusal Nat)) := do
  let d ← get
  let opened (file : OpenFile) : Service (Option (Except Refusal Nat)) := do
    return some (.ok (← connect (← addFile file) 0 false))
  let file : OpenFile :=
    { channel := .file n, reads := mode.reads, writes := mode.writes, appends := mode.appends }
  match (d.machine.volume.inode n).content with
  | .directory _ _ =>
    if mode.writes || mode.creates then return some (.error .isDirectory)
    opened file
  | .regular _ =>
    if mode.truncates then onMachine fun m => { m with volume := m.volume.empty d.slot.time n }
    opened file
  | .link _ => return some (.error .linkLoop)
  | .device (.descriptor k) =>
    match d.machine.fileOf? d.slot k with
    | none => return some (.error .noEntry)
    | some (_, other) =>
      if let .file n := other.channel then
        if mode.truncates then
          onMachine fun m => { m with volume := m.volume.empty d.slot.time n }
      opened { file with channel := other.channel }
  | .device device => opened { file with channel := .device device }

/-- Opens a file. -/
def openFile (path : Octets) (mode : OpenMode) : Service (Option (Except Refusal Nat)) := do
  let d ← get
  let aim : Aim := if !mode.creates then .target else if mode.exclusive then .entry else .creation
  match d.machine.volume.place d.slot.directory aim path with
  | .error reason => return some (.error reason)
  | .ok place => match place.inode? with
    | some n =>
      if mode.creates && mode.exclusive then return some (.error .alreadyExists)
      openInode n mode
    | none =>
      if !mode.creates then return some (.error .noEntry)
      if place.hasSlash then return some (.error .isDirectory)
      if (d.machine.volume.inode place.directory).links = 0 then return some (.error .noEntry)
      let (volume, n) := d.machine.volume.create d.slot.time place (.regular ByteArray.empty)
        (mode.permissions &&& (0o777 ^^^ d.slot.mask))
      onMachine fun m => { m with volume }
      openInode n { mode with truncates := false }

/-- What is told about an open file. -/
def statusOfFile (file : OpenFile) : Service FileStatus := do
  match file.channel with
  | .file n => return (← get).machine.volume.statusOf n
  | .readEnd p | .writeEnd p => return ⟨1000000 + p, .fifo, 0o600, 0, 1, 0⟩
  | .device _ => return ⟨999999, .device, 0o666, 0, 1, 0⟩

/-- What is told about the file at a path. -/
def statusAt (path : Octets) (follow : Bool) : Service (Except Refusal FileStatus) := do
  let d ← get
  match d.machine.volume.find d.slot.directory (if follow then .target else .itself) path with
  | .error reason => return .error reason
  | .ok n => match (d.machine.volume.inode n).content with
    | .device (.descriptor k) =>
      match d.machine.fileOf? d.slot k with
      | none => if follow then return .error .noEntry
      | some (_, file) => if follow then return .ok (← statusOfFile file)
      return .ok { d.machine.volume.statusOf n with kind := .link, size := 15, mode := 0o777 }
    | _ => return .ok (d.machine.volume.statusOf n)

/-- Waits for a child. -/
def awaitChild (child : Option Nat) (blocks : Bool) :
    Service (Option (Except Refusal (Option (Nat × Ending)))) := do
  let d ← get
  let children := d.machine.slots.filter fun s =>
    s.parent == d.slot.number && child.all (· == s.number)
  if children.isEmpty then return some (.error .noChild)
  match children.find? Slot.hasEnded with
  | some s =>
    let ending := match s.standing with
      | .ended ending => ending
      | _ => .exited 0
    onMachine fun m => { m with slots := m.slots.filter fun other => other.number ≠ s.number }
    return some (.ok (some (s.number, ending)))
  | none =>
    if !blocks then return some (.ok none)
    if !d.slot.noted.isEmpty then return some (.error .interrupted)
    return none

/-- Goes on as another program. -/
def execute (path : Octets) (argv environment : List Octets) :
    Service (Except Refusal Process) := do
  let d ← get
  match Image.find d.machine.volume d.slot.directory Image.interpreterLimit path argv with
  | .error reason => return .error reason
  | .ok image => match d.machine.load image.program image.argv environment with
    | none => return .error .notExecutableFormat
    | some process =>
      onSlot fun s => { s with
        descriptors := s.descriptors.filter fun entry => !entry.2.closesOnExecution
        actions := s.actions.filter fun entry => entry.2 == .ignore
        noted := [] }
      wakeOthers
      return .ok process

/-- The answer to a demand, if there is one yet. -/
def answer : (demand : Demand) → Service (Option demand.Answer)
  | .rest => do
    let noted := (← get).slot.noted
    if !noted.isEmpty then onSlot fun s => { s with noted := [] }
    return some noted
  | .read descriptor count => do
    let d ← get
    match d.machine.fileOf? d.slot descriptor with
    | some (index, file) =>
      match ← readFile index file count with
      | none =>
        if d.slot.noted.isEmpty then return none else return some (.error .interrupted)
      | answer => return answer
    | none => return some (.error .badDescriptor)
  | .write descriptor octets => do
    let d ← get
    match d.machine.fileOf? d.slot descriptor with
    | some (index, file) => writeFile index file octets
    | none => return some (.error .badDescriptor)
  | .openFile path mode => do
    let answer ← openFile path mode
    return answer
  | .close descriptor => do
    let d ← get
    if (d.slot.descriptors.lookup descriptor).isNone then return some (.error .badDescriptor)
    onSlot fun s => s.setDescriptor descriptor none
    wakeOthers
    return some (.ok ())
  | .duplicate descriptor least closesOnExecution => do
    match (← get).slot.descriptors.lookup descriptor with
    | some d => return some (.ok (← connect d.file least closesOnExecution))
    | none => return some (.error .badDescriptor)
  | .duplicateTo descriptor target => do
    match (← get).slot.descriptors.lookup descriptor with
    | some d =>
      onSlot fun s => s.setDescriptor target (some ⟨d.file, false⟩)
      wakeOthers
      return some (.ok ())
    | none => return some (.error .badDescriptor)
  | .pipe => do
    let p := (← get).machine.pipes.size
    onMachine fun m => { m with pipes := m.pipes.push {} }
    let input ← connect (← addFile { channel := .readEnd p, writes := false }) 0 false
    let output ← connect (← addFile { channel := .writeEnd p, reads := false }) 0 false
    return some (input, output)
  | .statusAt path follow => return some (← statusAt path follow)
  | .namesIn path => return some (← fromVolume fun v here => do
      return (v.entries (← v.findDirectory here path)).map Prod.fst)
  | .makeDirectory path permissions => do
    let mask := (← get).slot.mask
    return some (← onVolume fun v now here =>
      v.makeDirectory now here path (permissions &&& (0o7777 ^^^ mask)))
  | .removeDirectory path => return some (← onVolume fun v now here =>
      v.removeDirectory now here path)
  | .removeFile path => return some (← onVolume fun v now here => v.removeFile now here path)
  | .rename source target => return some (← onVolume fun v now here =>
      v.rename now here source target)
  | .makeHardLink source target => return some (← onVolume fun v now here =>
      v.makeHardLink now here source target)
  | .makeLink target path => return some (← onVolume fun v now here =>
      if target = "" then .error .noEntry
      else v.makeFile now here path (.link target) 0o777)
  | .setPermissions path permissions => return some (← onVolume fun v _ here => do
      let n ← v.find here .target path
      return v.change n fun file => { file with mode := permissions &&& 0o7777 })
  | .setTime path => return some (← onVolume fun v now here => do
      return v.change (← v.find here .target path) fun file => { file with time := now })
  | .changeDirectory path => do
    match ← fromVolume fun v here => v.findDirectory here path with
    | .ok n => onSlot fun s => { s with directory := n }; return some (.ok ())
    | .error reason => return some (.error reason)
  | .workingDirectory => return some (← fromVolume fun v here => do
      return "/" ++ String.intercalate "/" (← v.pathOf v.inodes.size here))
  | .setMask mask => do
    let old := (← get).slot.mask
    onSlot fun s => { s with mask := mask &&& 0o777 }
    return some old
  | .awaitChild child blocks => do
    let answer ← awaitChild child blocks
    return answer
  | .signal process number => return some (← send process number)
  | .setAction number action => do
    if Signal.fixed.contains number then return some (.error .invalidArgument)
    onSlot fun s => { s with
      actions := (number, action) :: s.actions.filter fun entry => entry.1 ≠ number }
    return some (.ok ())
  | .action number => return some ((← get).slot.action number)
  | .sleep duration => do
    let d ← get
    match d.slot.standing with
    | .sleeping until_ => onSlot fun s => { s with time := until_ }; return some true
    | _ =>
      if !d.slot.noted.isEmpty then return some false
      onSlot fun s => { s with standing := .sleeping (d.slot.time + duration) }
      return none
  | .identity => return some ((← get).slot.number, (← get).slot.parent)
  | .execute _ _ _ => return none

end Service

end AheadOfTime
