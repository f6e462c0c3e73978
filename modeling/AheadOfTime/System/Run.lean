import AheadOfTime.FileTree.Basic
import AheadOfTime.System.Service

/-! # Running a machine

    One step of a machine moves the process that lies furthest behind.  A machine runs
    until its first process has ended and no other one can add to the output, or until no
    process can move.

    A file tree becomes the volume of a machine, together with the devices that every
    system has, and the volume becomes a file tree again when the machine has stopped. -/

namespace AheadOfTime

/-- The microseconds that a process needs for a demand. -/
def Demand.cost : Demand → Nat
  | rest => 1
  | read _ _ | write _ _ | close _ => 2
  | execute _ _ _ => 500
  | _ => 4

namespace Machine

/-- The microseconds that a process needs to start a child. -/
def startCost : Nat := 100

/-- The microseconds until a child begins. -/
def startDelay : Nat := 300

/-- The process that moves next: the one that is furthest behind, or the older one of two. -/
def next? (m : Machine) : Option Slot :=
  m.slots.foldl (fun best s => match s.nextTime?, best with
    | none, _ => best
    | some _, none => some s
    | some t, some b => if t < (b.nextTime?).getD 0 then some s else best) none

/-- The machine after a process has ended: its children have no parent any more, and its
    own parent is told. -/
def bury (m : Machine) (s : Slot) : Machine :=
  let slots := m.slots.filterMap fun other =>
    if other.number = s.number then if s.parent = keeper then none else some s
    else if other.parent = s.number then
      if other.hasEnded then none else some { other with parent := keeper }
    else if other.number = s.parent then some (Service.deliver Signal.child s.time other)
    else some other
  { m with slots }.wake s.time

/-- The machine with what is kept for a process put back. -/
def putSlot (m : Machine) (s : Slot) : Machine :=
  if s.hasEnded then m.bury s else m.changeSlot s.number fun _ => s

/-- A process starts a child. -/
def startChild (m : Machine) (s : Slot) (child : Process) (resume : Nat → Process) : Machine :=
  let number := m.nextNumber
  let born : Slot := { s with
    number, parent := s.number, process := child, standing := .ready
    time := s.time + startDelay, noted := [] }
  let parent : Slot := { s with process := resume number, time := s.time + startCost }
  let m := m.changeSlot s.number fun _ => parent
  { m with slots := m.slots ++ [born], nextNumber := number + 1 }

/-- Moves a process. -/
def step (m : Machine) (s : Slot) : Machine :=
  match s.process with
  | .ended status => m.bury (s.finish (.exited (status % 256)))
  | .starts child resume => m.startChild s child resume
  | .asks (.execute path argv environment) resume =>
    let (result, d) := (Service.execute path argv environment).run ⟨m, s⟩
    match result with
    | .ok process => d.machine.putSlot { d.slot with process, time := d.slot.time + 500 }
    | .error reason => d.machine.putSlot { d.slot with process := resume reason }
  | .asks demand resume =>
    let (answer, d) := (Service.answer demand).run ⟨m, s⟩
    if d.slot.hasEnded then d.machine.bury d.slot
    else match answer with
      | some a => d.machine.putSlot { d.slot with
          process := resume a
          standing := if d.slot.standing = .halted then .halted else .ready
          time := d.slot.time + demand.cost }
      | none => d.machine.putSlot { d.slot with
          standing := match d.slot.standing with
            | .ready => .waiting
            | standing => standing }

/-- How the first process has ended, if it has. -/
def ending? (m : Machine) : Option Ending :=
  match m.slots.head? with
  | some { number, standing := .ended ending, .. } =>
    if number = firstNumber then some ending else none
  | _ => none

/-- Whether nothing that is still to come can be seen. -/
def isDone (m : Machine) : Bool :=
  m.ending?.isSome && !m.slots.any fun s => s.descriptors.any fun (_, d) =>
    (m.files[d.file]?.getD default).channel == .writeEnd Service.outputPipe

/-- Runs a machine for a number of steps at most. -/
def runFor : Nat → Machine → Machine
  | 0, m => m
  | n + 1, m =>
    if m.isDone then m
    else match m.next? with
      | none => m
      | some s => runFor n (m.step s)

/-- The most steps that a machine makes. -/
def stepLimit : Nat := 200000000

/-- Runs a machine. -/
def run (m : Machine) : Machine := runFor stepLimit m

/-- What the processes of a machine have put out. -/
def output (m : Machine) : Octets := (m.pipes[Service.outputPipe]?.getD default).contents

end Machine

end AheadOfTime

namespace AheadOfTime

namespace Volume

/-- The time at which a machine starts, in microseconds. -/
def startTime : Nat := 1700000000000000

/-- When the files were made that a machine finds. -/
def mountTime : Nat := startTime - 1000000

/-- The volume with a directory at a location, and with those above it; answers its number. -/
def reach (v : Volume) (here : Nat) : List Octets → Volume × Nat
  | [] => (v, here)
  | name :: later =>
    match (v.entries here).lookup name with
    | some n => reach v n later
    | none =>
      let (v, n) := v.create mountTime ⟨here, name, none, false⟩ (.directory here []) 0o755
      reach v n later

/-- Puts a file at a location, unless there is something already. -/
def install (v : Volume) (location : List Octets) (content : Nat → Content) (mode : Nat) : Volume :=
  match location.getLast? with
  | none => v
  | some name =>
    let (v, directory) := v.reach root location.dropLast
    if ((v.entries directory).lookup name).isSome then v
    else (v.create mountTime ⟨directory, name, none, false⟩ (content directory) mode).1

/-- Puts an entry of a file tree in its place. -/
def installEntry (v : Volume) (location : Location) (entry : Entry) : Volume :=
  let names := location.map Octets.ofText
  match entry with
  | .directory => (v.reach root names).1
  | .file bytes executable =>
    v.install names (fun _ => .regular (ByteArray.mk bytes.toArray))
      (if executable then 0o755 else 0o644)
  | .link target => v.install names (fun _ => .link (Octets.ofText target)) 0o777

/-- The devices that every system has. -/
def devices : List (List Octets × Device) :=
  [(["dev", "null"], .null), (["dev", "zero"], .zero), (["dev", "full"], .full),
    (["dev", "stdin"], .descriptor 0), (["dev", "stdout"], .descriptor 1),
    (["dev", "stderr"], .descriptor 2)] ++
  (List.range 10).map fun n => (["dev", "fd", toString n], .descriptor n)

/-- The volume that holds a file tree. -/
def ofTree (t : FileTree) : Volume :=
  let entries := t.entries.mergeSort fun a b => a.1.length ≤ b.1.length
  let empty : Volume := ⟨#[{ content := .directory root [], mode := 0o755, time := mountTime }]⟩
  let v := entries.foldl (fun v (location, entry) => v.installEntry location entry) empty
  devices.foldl (fun v (location, device) =>
    v.install location (fun _ => .device device) 0o666) v

/-- The entries below a directory, which lies at a location; directories are nested to a
    depth of at most `n`. -/
def entriesBelow (v : Volume) : Nat → Location → Nat → List (Location × Entry)
  | 0, _, _ => []
  | n + 1, location, directory => (v.entries directory).flatMap fun (name, k) =>
    let here := location ++ [Octets.toText name]
    let file := v.inode k
    match file.content with
    | .regular bytes => [(here, .file bytes.toList (file.mode &&& 0o111 ≠ 0))]
    | .directory _ _ => (here, .directory) :: entriesBelow v n here k
    | .link target => [(here, .link (Octets.toText target))]
    | _ => []

/-- The file tree that a volume holds. -/
def toTree (v : Volume) (workingDirectory : Location) : FileTree :=
  ⟨workingDirectory, v.entriesBelow v.inodes.size [] root⟩

end Volume

namespace Machine

/-- The machine on which a process runs with what a file tree holds; it reads nothing,
    and all its output is kept. -/
def start (load : String → List Octets → List Octets → Option Process) (files : FileTree)
    (process : Process) : Machine :=
  let volume := Volume.ofTree files
  let directory := (volume.reach Volume.root (files.workingDirectory.map Octets.ofText)).2
  { volume, load
    files := #[{ channel := .device .null, writes := false },
      { channel := .writeEnd Service.outputPipe, reads := false }]
    pipes := #[{}]
    slots := [
      { number := firstNumber, parent := starter, process, time := Volume.startTime, directory
        descriptors := [(0, ⟨0, false⟩), (1, ⟨1, false⟩), (2, ⟨1, false⟩)] }]
    nextNumber := firstNumber + 1 }

end Machine

end AheadOfTime
