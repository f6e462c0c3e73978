import AheadOfTime.Text.Json

/-! # Build logs

    What a build did, as a list of records in the order of events, and the log as a file
    of JSON lines.  A log that is echoed shows the messages of the records of started
    commands. -/

namespace AheadOfTime

/-- One event of a build. -/
structure Record where
  level : String := "info"
  operation : String
  input : Option String := none
  arch : Option String := none
  stage : Option String := none
  tool : Option String := none
  message : String
  extra : Option (List (String × Json)) := none
  deriving BEq, Repr

/-- A text, or null. -/
def Json.ofOption (s : Option String) : Json :=
  match s with
  | some s => .str s
  | none => .null

namespace Record

/-- The record as a JSON object; `extra` appears only if it was given. -/
def toJson (r : Record) : Json :=
  .obj ([("level", .str r.level), ("operation", .str r.operation), ("input", .ofOption r.input),
      ("arch", .ofOption r.arch), ("stage", .ofOption r.stage), ("tool", .ofOption r.tool),
      ("message", .str r.message)]
    ++ (r.extra.map fun fields => ("extra", Json.obj fields)).toList)

/-- Whether the record is shown while the build runs. -/
def isEchoed (r : Record) : Bool := r.operation == "invoke"

end Record

/-- The records of a build, oldest first. -/
abbrev Log := List Record

namespace Log

/-- The messages that are shown while the build runs. -/
def echoed (log : Log) : List String := (log.filter Record.isEchoed).map Record.message

/-- The records about an input, or those about none. -/
def forInput (log : Log) (input : Option String) : Log := log.filter fun r => r.input == input

/-- The records of a stage, or those of none. -/
def forStage (log : Log) (stage : Option String) : Log := log.filter fun r => r.stage == stage

/-- The log as text, one JSON object a line; also an empty log ends its one line. -/
def jsonLines (log : Log) : String :=
  String.intercalate "\n" (log.map fun r => r.toJson.text) ++ "\n"

end Log

end AheadOfTime
