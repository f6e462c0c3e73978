import AheadOfTime.Fault
import AheadOfTime.Text.Json

/-! # Error reports

    An error as it is shown: a stable code, one sentence, perhaps a hint, and a context
    of keys and values.  A report of a failed tool also keeps the command, its output
    and its status. -/

namespace AheadOfTime

/-- The stable codes of errors. -/
inductive ErrorCode where
  | validation
  | conflictingOptions
  | invalidArch
  | invalidSdk
  | unsupportedStatic
  | invalidInput
  | missingOutput
  | invalidFirstInput
  | toolNotFound
  | toolFailure
  deriving DecidableEq, Repr

namespace ErrorCode

/-- Every code. -/
def all : List ErrorCode :=
  [validation, conflictingOptions, invalidArch, invalidSdk, unsupportedStatic, invalidInput,
    missingOutput, invalidFirstInput, toolNotFound, toolFailure]

/-- The code as text. -/
def text : ErrorCode → String
  | validation => "E_VALIDATION"
  | conflictingOptions => "E_CONFLICTING_OPTIONS"
  | invalidArch => "E_INVALID_ARCH"
  | invalidSdk => "E_INVALID_SDK"
  | unsupportedStatic => "E_UNSUPPORTED_STATIC"
  | invalidInput => "E_INVALID_INPUT"
  | missingOutput => "E_MISSING_OUTPUT"
  | invalidFirstInput => "E_INVALID_FIRST_INPUT"
  | toolNotFound => "E_TOOL_NOT_FOUND"
  | toolFailure => "E_TOOL_FAILURE"

/-- The code that a text writes. -/
def ofText (s : String) : Except Fault ErrorCode :=
  match all.find? fun c => c.text == s with
  | some c => .ok c
  | none => .error (.unknownCode s)

end ErrorCode

/-- Keys with their values, in the order in which the keys came up. -/
abbrev Context := List (String × String)

namespace Context

/-- Sets a key: in its place if it is there, else at the end. -/
def insert (c : Context) (key value : String) : Context :=
  if c.any (·.1 == key) then c.map fun pair => if pair.1 == key then (key, value) else pair
  else c ++ [(key, value)]

/-- Sets several keys, one after the other. -/
def insertAll (c : Context) (pairs : List (String × String)) : Context :=
  pairs.foldl (fun c pair => c.insert pair.1 pair.2) c

/-- The value of a key. -/
def get? (c : Context) (key : String) : Option String := c.lookup key

end Context

/-- How a tool failed. -/
structure ToolExit where
  command : List String
  output : String
  status : Int
  deriving DecidableEq, Repr

/-- An error as it is shown. -/
structure Report where
  code : ErrorCode
  text : String
  hint : Option String
  context : Context
  toolExit : Option ToolExit
  deriving DecidableEq, Repr

namespace Report

/-- A report; of a key that is given twice the last value counts. -/
def of (code : ErrorCode) (text : String) (hint : Option String)
    (context : List (String × String)) : Report :=
  ⟨code, text, hint, Context.insertAll [] context, none⟩

/-- A report of a failed tool: the context starts with the command and its status. -/
def ofToolExit (text : String) (hint : Option String) (context : List (String × String))
    (exit : ToolExit) : Report :=
  let base :=
    [("command", String.intercalate " " exit.command), ("returncode", toString exit.status)]
  ⟨.toolFailure, text, hint, Context.insertAll base context, some exit⟩

/-- The whole message: the sentence, the hint unless it is empty, and the values of the
    context that are not empty, a line each. -/
def message (r : Report) : String :=
  let hint := match r.hint with
    | some hint => if hint = "" then [] else ["Hint: " ++ hint]
    | none => []
  let context := (r.context.filter (·.2 ≠ "")).map fun pair => "  " ++ pair.1 ++ ": " ++ pair.2
  String.intercalate "\n" (r.text :: (hint ++ context))

/-- The report as data. -/
def toJson (r : Report) : Json :=
  .obj ([("code", .str r.code.text), ("message", .str r.message),
      ("context", .obj (r.context.map fun pair => (pair.1, .str pair.2)))]
    ++ (r.hint.map fun hint => ("hint", Json.str hint)).toList
    ++ (r.toolExit.map fun exit => ("output", Json.str exit.output)).toList)

end Report

end AheadOfTime
