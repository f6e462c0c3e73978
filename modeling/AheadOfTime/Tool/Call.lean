import AheadOfTime.FileTree.Basic

/-! # Tool calls

    A tool call is an argument vector with the stage of the build that makes it.  How
    tools behave is a parameter of a build: whatever they do is a function of the calls
    before and the files they find, so a statement about all toolsets is one about all
    behaviours of the tools. -/

namespace AheadOfTime

/-- The stage of a build that calls a tool. -/
inductive Stage where
  | probe
  | symbols
  | frontend
  | backend
  | assemble
  | merge
  | glue
  | link
  | strip
  | other (name : String)
  deriving DecidableEq, Repr

namespace Stage

/-- The stages of a build. -/
def all : List Stage :=
  [probe, symbols, frontend, backend, assemble, merge, glue, link, strip]

/-- The name of a stage. -/
def name : Stage → String
  | probe => "probe"
  | symbols => "symbols"
  | frontend => "frontend"
  | backend => "backend"
  | assemble => "assemble"
  | merge => "merge"
  | glue => "glue"
  | link => "link"
  | strip => "strip"
  | other name => name

/-- The stage of a name. -/
def ofName (s : String) : Stage := (all.find? fun stage => stage.name == s).getD (other s)

end Stage

/-- One call of a tool.  The status of a call that is not checked does not matter. -/
structure Call where
  stage : Stage
  argv : List String
  input : Option String := none
  arch : Option String := none
  isChecked : Bool := true
  deriving DecidableEq, Repr

/-- What comes of a call. -/
inductive Reply where
  /-- The tool ran and ended with a status, negative for a signal, and what it printed. -/
  | exited (status : Int) (output : String)
  /-- There is no such program. -/
  | missing
  /-- The call came to nothing for another reason. -/
  | failed (fault : Fault)
  deriving DecidableEq, Repr

/-- A call, the files the tool found, and what came of it. -/
structure Exchange where
  call : Call
  found : FileTree
  reply : Reply

/-- The behaviour of all tools: what comes of a call, and the files it leaves behind,
    given the exchanges before, oldest first. -/
abbrev Toolset := List Exchange → Call → FileTree → Reply × FileTree

/-- The element behind the first occurrence of `a`. -/
def following [DecidableEq α] (a : α) : List α → Option α
  | [] => none
  | [_] => none
  | b :: c :: later => if b = a then some c else following a (c :: later)

/-- The element in front of the first occurrence of `a`. -/
def preceding [DecidableEq α] (a : α) : List α → Option α
  | [] => none
  | [_] => none
  | b :: c :: later => if c = a then some b else preceding a (c :: later)

end AheadOfTime
