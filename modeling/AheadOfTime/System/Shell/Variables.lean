import AheadOfTime.System.Shell.State
import AheadOfTime.System.Shell.Print

/-! # Variables

    Giving variables values and taking them away, and what programs see of them.
    Variables are kept in the order in which they were made; they are listed by buckets,
    which their names fall into. -/

namespace AheadOfTime.Shell

namespace Variable

/-- The bucket of a name among a number of them. -/
def bucket (count : Nat) (name : Octets) : Nat :=
  let head := (name.toList.headD '\x00').toNat
  name.foldl (fun sum c => sum + c.toNat) (16 * head) % count

/-- How many buckets there are for variables. -/
def bucketCount : Nat := 39

/-- Where programs are looked for by a script that is not told. -/
def defaultSearchPath : Octets :=
  "/usr/local/sbin:/usr/local/bin:/usr/sbin:/usr/bin:/sbin:/bin"

/-- The separators of fields if nothing else is said. -/
def defaultSeparators : Octets := " \t\n"

/-- The variables that every shell has. -/
def initial : List (Octets × Variable) :=
  let kept (value : Option Octets) : Variable := { value, isKept := true }
  [("OPTIND", kept (some "1")), ("PS4", kept (some "+ ")), ("PS2", kept (some "> ")),
    ("PS1", kept (some "# ")), ("PATH", kept (some defaultSearchPath)), ("MAILPATH", kept none),
    ("MAIL", kept none), ("IFS", kept (some defaultSeparators)), ("ATTY", kept none)]

/-- How a variable is written in a list of them: behind a word, and with its value in quotes. -/
def shown (word : Octets) (name : Octets) (v : Variable) : Octets :=
  let value := match v.value with
    | some value => "=" ++ Print.quotedWord value
    | none => ""
  (if word = "" then "" else word ++ " ") ++ name ++ value

end Variable

namespace Script

/-- The value of a variable. -/
def valueOf? (name : Octets) : Script (Option Octets) := do
  return (← get).bindings.lookup name >>= Variable.value

/-- The separators of fields. -/
def separators : Script Octets := return (← valueOf? "IFS").getD Variable.defaultSeparators

/-- Where programs are looked for. -/
def searchPath : Script Octets := return (← valueOf? "PATH").getD ""

/-- Puts a variable in its place as it is, or takes it away. -/
def place (name : Octets) (v : Option Variable) : Script Unit := modify fun s =>
  match v with
  | none => { s with bindings := s.bindings.filter fun entry => entry.1 ≠ name }
  | some v =>
    if (s.bindings.lookup name).isSome then
      { s with bindings := s.bindings.map fun entry =>
          if entry.1 = name then (name, v) else entry }
    else { s with bindings := s.bindings ++ [(name, v)] }

/-- What has to happen when a variable gets another value. -/
def react (name : Octets) (value : Octets) : Script Unit := do
  if name = "PATH" then
    modify fun s => { s with hashed := s.hashed.filter fun entry => entry.2.place.isNone }
  else if name = "OPTIND" then
    let index ← countOf value
    modify fun s => { s with optionPlace := { index := if index = 0 then 1 else index } }

/-- Gives a variable another value, or takes its value away, and adds what is noted
    about it; `isSilent` if nothing else is to happen. -/
def put (name : Octets) (new : Variable) (isSilent : Bool := false) : Script Unit := do
  let s ← get
  let isExported := new.isExported || s.options.has 'a'
  let old := s.bindings.lookup name
  if old.any Variable.isReadOnly then stop (name ++ ": is read only")
  unless isSilent do
    if old.isSome then react name (new.value.getD "")
  let isKept := new.isKept || old.any Variable.isKept
  if new.value.isNone && !isExported && !new.isReadOnly && !isKept then place name none
  else place name (some {
    value := new.value, isKept
    isExported := isExported || old.any Variable.isExported
    isReadOnly := new.isReadOnly })

/-- Breaks off unless a text can be the name of a variable. -/
def checkName (name : Octets) : Script Unit := do
  unless isName name do stop (name ++ ": bad variable name")

/-- Gives a variable a value. -/
def assign (name value : Octets) : Script Unit := do
  checkName name
  put name { value := some value }

/-- Removes a variable. -/
def unset (text : Octets) : Script Unit := do
  let name := (text.takeWhile (· ≠ '=')).toString
  checkName name
  put name {}

/-- The name and the value in a text, if it holds a value. -/
def splitAssignment (text : Octets) : Octets × Option Octets :=
  let name := (text.takeWhile (· ≠ '=')).toString
  (name, if name = text then none else some (text.drop (name.length + 1)).toString)

/-- Exports a variable or keeps it from changing, perhaps after it has got a value. -/
def declare (marks : Variable) (text : Octets) : Script Unit := do
  let (name, value) := splitAssignment text
  match value, (← get).bindings.lookup name with
  | none, some v => place name (some { v with
      isExported := v.isExported || marks.isExported
      isReadOnly := v.isReadOnly || marks.isReadOnly })
  | value, _ =>
    checkName name
    put name { marks with value }

/-- Begins a frame of local variables. -/
def pushFrame : Script Unit := modify fun s => { s with frames := [] :: s.frames }

/-- Notes what the end of the innermost frame puts back. -/
def save (saved : Saved) : Script Unit := modify fun s =>
  match s.frames with
  | [] => s
  | frame :: outer => { s with frames := (saved :: frame) :: outer }

/-- Makes a variable a local one, which may get a value; a hyphen stands for the options. -/
def makeLocal (text : Octets) (isExported : Bool) : Script Unit := do
  let s ← get
  if text = "-" then save (.options s.options)
  else
    let (name, value) := splitAssignment text
    match s.bindings.lookup name with
    | none =>
      if value.isNone then checkName name
      put name { value, isExported, isKept := true }
      save (.variable name none)
    | some before =>
      place name (some { before with isKept := true })
      if value.isSome then put name { value, isExported }
      save (.variable name (some before))

/-- Puts back what has been saved. -/
def restore : Saved → Script Unit
  | .options options => modify fun s => { s with options }
  | .variable name none => do
    if let some v := (← get).bindings.lookup name then
      place name (some { v with isKept := false, isReadOnly := false })
    put name {}
  | .variable name (some before) => do
    react name (before.value.getD "")
    place name (some before)

/-- Ends the innermost frame of local variables. -/
def popFrame : Script Unit := do
  match (← get).frames with
  | [] => return ()
  | frame :: outer =>
    modify fun s => { s with frames := outer }
    for saved in frame do
      restore saved

/-- The names with what is known under them, by buckets. -/
def byBucket (count : Nat) (entries : List (Octets × α)) : List (Octets × α) :=
  entries.mergeSort fun a b =>
    Variable.bucket count a.1 ≤ Variable.bucket count b.1

/-- What programs see of the variables. -/
def environment : Script (List Octets) := do
  return (byBucket Variable.bucketCount (← get).bindings).filterMap fun (name, v) =>
    if v.isExported then v.value.map fun value => name ++ "=" ++ value else none

/-- Lists variables in the order of their names, behind a word. -/
def listVariables (word : Octets) (isListed : Variable → Bool) : Script Unit := do
  let found := (← get).bindings.filter fun entry => isListed entry.2
  for (name, v) in found.mergeSort fun a b => a.1 ≤ b.1 do
    printLine (v.shown word name)

end Script

end AheadOfTime.Shell
