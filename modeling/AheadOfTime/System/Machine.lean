import AheadOfTime.System.Volume
import AheadOfTime.System.Process
import AheadOfTime.System.Signal

/-! # Machines

    A machine keeps a volume and runs processes on it.  Every process has a clock of its
    own, as if it ran on a processor of its own, and the process that lies furthest
    behind moves next; so the order of events does not depend on anything but the
    processes themselves. -/

namespace AheadOfTime

/-- What an open file leads to. -/
inductive Channel where
  | file (inode : Nat)
  | readEnd (pipe : Nat)
  | writeEnd (pipe : Nat)
  | device (device : Device)
  deriving DecidableEq, Repr

/-- An open file, which several descriptors may share with its place in the file. -/
structure OpenFile where
  channel : Channel
  offset : Nat := 0
  reads : Bool := true
  writes : Bool := true
  appends : Bool := false

instance : Inhabited OpenFile := ⟨{ channel := .device .null }⟩

/-- A pipe: what is in it, which comes in two parts, the second one last first. -/
structure Pipe where
  front : List Char := []
  back : List Octets := []
  size : Nat := 0

instance : Inhabited Pipe := ⟨{}⟩

namespace Pipe

/-- The most octets that wait in a pipe. -/
def capacity : Nat := 65536

/-- The pipe with octets put in. -/
def put (p : Pipe) (octets : Octets) : Pipe :=
  { p with back := octets :: p.back, size := p.size + octets.length }

/-- All that is in the pipe. -/
def contents (p : Pipe) : Octets := String.ofList p.front ++ String.join p.back.reverse

/-- Takes up to a number of octets out of the pipe. -/
def take (p : Pipe) (count : Nat) : Octets × Pipe :=
  let all := if p.front.isEmpty then (String.join p.back.reverse).toList else p.front
  let back := if p.front.isEmpty then [] else p.back
  let taken := String.ofList (all.take count)
  (taken, { p with front := all.drop count, back, size := p.size - taken.length })

end Pipe

/-- A descriptor: the open file it leads to, and whether it is closed when its process
    goes on as another program. -/
structure Descriptor where
  file : Nat
  closesOnExecution : Bool := false
  deriving DecidableEq, Repr

/-- How a process stands. -/
inductive Standing where
  | ready
  | sleeping (until_ : Nat)
  /-- Its demand cannot be answered yet. -/
  | waiting
  | halted
  | ended (ending : Ending)
  deriving DecidableEq, Repr

/-- A process on a machine, with what the machine keeps for it. -/
structure Slot where
  number : Nat
  parent : Nat
  process : Process
  standing : Standing := .ready
  time : Nat
  descriptors : List (Nat × Descriptor)
  directory : Nat
  mask : Nat := 0o022
  actions : List (Nat × SignalAction) := []
  noted : List Nat := []

namespace Slot

/-- Whether the process has ended. -/
def hasEnded (s : Slot) : Bool :=
  match s.standing with
  | .ended _ => true
  | _ => false

/-- When the process can move, if it can. -/
def nextTime? (s : Slot) : Option Nat :=
  match s.standing with
  | .ready => some s.time
  | .sleeping until_ => some until_
  | _ => none

/-- What the process wants to happen when a signal comes. -/
def action (s : Slot) (signal : Nat) : SignalAction := (s.actions.lookup signal).getD .default

/-- The slot of a process that has ended. -/
def finish (s : Slot) (ending : Ending) : Slot :=
  { s with
    process := .ended 0, standing := .ended ending, descriptors := [], noted := [] }

/-- The slot with a descriptor set, or closed. -/
def setDescriptor (s : Slot) (n : Nat) (d : Option Descriptor) : Slot :=
  let others := s.descriptors.filter fun entry => entry.1 ≠ n
  { s with descriptors := match d with
    | some d => (n, d) :: others
    | none => others }

/-- The least descriptor from a number on that is free; there are at most `n` in use. -/
def freeDescriptor (s : Slot) : Nat → Nat → Nat
  | 0, least => least
  | n + 1, least =>
    if (s.descriptors.lookup least).isSome then freeDescriptor s n (least + 1) else least

/-- The least descriptor from a number on that is free. -/
def freeFrom (s : Slot) (least : Nat) : Nat := s.freeDescriptor s.descriptors.length least

end Slot

/-- A machine. -/
structure Machine where
  volume : Volume
  files : Array OpenFile := #[]
  pipes : Array Pipe := #[]
  slots : List Slot := []
  nextNumber : Nat := 4242
  /-- What becomes of a program file: the process that runs it, from the arguments and
      the environment. -/
  load : String → List Octets → List Octets → Option Process

namespace Machine

/-- The number of the process that looks after processes without a parent. -/
def keeper : Nat := 1

/-- The number of the process that has started the first one of the machine. -/
def starter : Nat := 4200

/-- The number of the first process. -/
def firstNumber : Nat := 4242

/-- The machine with what is kept for a process changed. -/
def changeSlot (m : Machine) (number : Nat) (f : Slot → Slot) : Machine :=
  { m with slots := m.slots.map fun s => if s.number = number then f s else s }

/-- The open file that a descriptor of a process leads to. -/
def fileOf? (m : Machine) (s : Slot) (descriptor : Nat) : Option (Nat × OpenFile) :=
  (s.descriptors.lookup descriptor).map fun d => (d.file, m.files[d.file]?.getD default)

/-- Whether some process has an end of a pipe open. -/
def isOpen (m : Machine) (s : Slot) (channel : Channel) : Bool :=
  let holds (slot : Slot) : Bool := slot.descriptors.any fun (_, d) =>
    (m.files[d.file]?.getD default).channel == channel
  holds s || m.slots.any fun other => other.number ≠ s.number && holds other

/-- Lets the processes that wait for something look again whether it is there. -/
def wake (m : Machine) (now : Nat) : Machine :=
  if m.slots.any fun s => s.standing == .waiting then
    { m with slots := m.slots.map fun s =>
        if s.standing == .waiting then
          { s with standing := .ready, time := max s.time (now + 30) }
        else s }
  else m

end Machine

end AheadOfTime
