import AheadOfTime.FileTree.Disk
import AheadOfTime.Log
import AheadOfTime.Notice
import AheadOfTime.Tool.Call

/-! # The world of a build

    All that a build reads and changes, as one value: the files, the identifiers drawn
    so far, the scratch session, the log, the warnings and the tool calls.  A step of a
    build changes the world and answers a value or a failure; the changes made before a
    failure stay. -/

namespace AheadOfTime

/-- A scratch session: the directory it works in, made when it is first needed, and the
    files it has handed out. -/
structure Scratch where
  label : String := "aotc-"
  parent : Option Path := none
  directory : Option Path := none
  files : List Path := []
  isClosed : Bool := false
  deriving DecidableEq, Repr

/-- What entry points are named after: texts drawn one after the other, some of them
    listed in advance, and the names that have been issued. -/
structure Draws where
  listed : List String := []
  made : Nat := 0
  issued : List String := []
  deriving DecidableEq, Repr

/-- All that a build reads and changes. -/
structure World where
  files : FileTree
  temporary : Path := .ofString "tmp"
  draws : Draws := {}
  scratchDirectories : Nat := 0
  scratchIds : Nat := 0
  scratch : Scratch := {}
  log : Log := []
  notices : List Notice := []
  exchanges : List Exchange := []
  pools : List Nat := []

/-- What happens next where several pieces of work are done side by side: a worker
    begins the next one, a piece that has been begun takes a step, or those not begun
    yet are called off. -/
inductive Turn where
  | begin
  | work (i : Nat)
  | callOff
  deriving DecidableEq, Repr

/-- What a build cannot change: how the tools behave, the identifiers in the names of
    scratch files, and the order in which work done side by side gets its turns. -/
structure Host where
  tools : Toolset
  scratchId : Nat → String := fun n => Text.hex 12 n
  turns : World → List Turn := fun _ => []

/-- A step of a build. -/
abbrev Build := ExceptT Failure (StateM World)

namespace Build

/-- Stops with a problem. -/
def complain (p : Problem) : Build α := throw (.problem p)

/-- Stops with a fault. -/
def giveUp (f : Fault) : Build α := throw (.fault f)

/-- The answer of a check that may end in a problem. -/
def ofChecked (result : Except Problem α) : Build α :=
  match result with
  | .ok a => return a
  | .error p => complain p

/-- The answer of a computation that may end in a fault. -/
def ofFallible (result : Except Fault α) : Build α :=
  match result with
  | .ok a => return a
  | .error f => giveUp f

/-- The answer of a computation that may fail. -/
def ofResult (result : Except Failure α) : Build α :=
  match result with
  | .ok a => return a
  | .error f => throw f

/-- An operation on the files of the world. -/
def onDisk (act : Disk α) : Build α := fun w =>
  match act.run w.files with
  | (.ok a, files) => (.ok a, { w with files })
  | (.error fault, files) => (.error (.fault fault), { w with files })

/-- Adds a record to the log. -/
def log (r : Record) : Build Unit := modify fun w => { w with log := w.log ++ [r] }

/-- Adds a warning. -/
def warn (n : Notice) : Build Unit := modify fun w => { w with notices := w.notices ++ [n] }

/-- Runs `cleanup` after `act`, whether `act` succeeds or fails; a failure of the
    cleanup counts for more than the answer of `act`. -/
def ensuring (act : Build α) (cleanup : Build Unit) : Build α := fun w =>
  match act.run w with
  | (answer, w) => match cleanup.run w with
    | (.ok (), w) => (answer, w)
    | (.error failure, w) => (.error failure, w)

end Build

end AheadOfTime
