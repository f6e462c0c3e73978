import AheadOfTime.Strand
import AheadOfTime.Text.Quoted

/-! # Running tools

    Every call of a tool goes through one function: it logs the command line, lets the
    tool work on the files, and turns a status other than zero into a problem unless the
    call is not checked. -/

namespace AheadOfTime

/-- A finished call. -/
structure ToolResult where
  argv : List String
  status : Int
  output : String
  deriving DecidableEq, Repr

/-- Whether the tool reported success. -/
def ToolResult.isOk (r : ToolResult) : Bool := r.status == 0

namespace Call

/-- The name under which the tool of a command appears in the log. -/
def toolName (program : String) : String := (Path.ofString program).name

/-- The record of a started command. -/
def startRecord (c : Call) (program : String) : Record where
  operation := "invoke"
  input := c.input
  arch := c.arch
  stage := some c.stage.name
  tool := some (toolName program)
  message := Text.shellLine c.argv

/-- The record of a command that ended with a status other than zero. -/
def failureRecord (c : Call) (program : String) (status : Int) : Record where
  level := "error"
  operation := "tool_failure"
  input := c.input
  arch := c.arch
  stage := some c.stage.name
  tool := some (toolName program)
  message := "`" ++ toolName program ++ "` exited with status " ++ toString status ++ "."

end Call

namespace Host

/-- Lets the tools answer a call and keeps the exchange. -/
def exchange (host : Host) (c : Call) : Build Reply := fun w =>
  let (reply, files) := host.tools w.exchanges c w.files
  (.ok reply, { w with files, exchanges := w.exchanges ++ [⟨c, w.files, reply⟩] })

/-- Starts a command and waits for the reply.  The call counts as made when its record
    is written. -/
def call (host : Host) (c : Call) : Build Reply := do
  match c.argv with
  | [] => Build.giveUp .missingArgument
  | program :: _ =>
    Build.log (c.startRecord program)
    host.exchange c

end Host

/-- What a reply comes to. -/
def Call.conclude (c : Call) (reply : Reply) : Build ToolResult := do
  match c.argv with
  | [] => Build.giveUp .missingArgument
  | program :: _ =>
    match reply with
    | .missing => Build.complain (.toolNotStarted program)
    | .failed fault => Build.giveUp fault
    | .exited status output =>
      if c.isChecked ∧ status ≠ 0 then
        Build.log (c.failureRecord program status)
        Build.complain (.toolFailed (Call.toolName program) c.stage.name c.input c.arch
          ⟨c.argv, output, status⟩)
      else
        return ⟨c.argv, status, output⟩

namespace Host

/-- Runs a command. -/
def run (host : Host) (c : Call) : Build ToolResult := do
  c.conclude (← host.call c)

/-- Runs a command beside other work, which may get between the reply and what it comes to. -/
def strand (host : Host) (c : Call) : Strand ToolResult := do
  let reply ← Strand.one (host.call c)
  Strand.one (c.conclude reply)

end Host

end AheadOfTime
