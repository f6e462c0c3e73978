import AheadOfTime.System.Shell.Search

/-! # Variables, options and aliases

    The builtins that declare and remove variables, set options and parameters, and keep
    aliases. -/

namespace AheadOfTime.Shell.Builtin

/-- Declares variables in some way, or lists those that have been. -/
def declare (word : Octets) (marks : Variable) (isListed : Variable → Bool)
    (arguments : List Octets) : Script Nat := do
  let (options, names) ← Script.readOptions "p" arguments
  if options.isEmpty && !names.isEmpty then
    for name in names do
      Script.declare marks name
  else Script.listVariables word isListed
  return 0

/-- Exports variables. -/
def export_ : List Octets → Script Nat :=
  declare "export" { isExported := true } Variable.isExported

/-- Keeps variables from changing. -/
def readonly : List Octets → Script Nat :=
  declare "readonly" { isReadOnly := true } Variable.isReadOnly

/-- Makes variables local ones. -/
def local_ (arguments : List Octets) : Script Nat := do
  if (← get).frames.isEmpty then Script.stop "not in a function"
  for argument in arguments do
    Script.makeLocal argument false
  return 0

/-- Removes variables or functions. -/
def unset (arguments : List Octets) : Script Nat := do
  let (options, names) ← Script.readOptions "vf" arguments
  for name in names do
    if (options.getLast?.map Prod.fst) == some 'f' then
      modify fun s => { s with functions := s.functions.filter fun entry => entry.1 ≠ name }
    else Script.unset name
  return 0

/-- Puts texts in the place of the parameters. -/
def setParameters (parameters : List Octets) : Script Unit :=
  modify fun s => { s with parameters, optionPlace := {} }

/-- Lists the options, as they stand or as commands that set them so. -/
def listOptions (asCommands : Bool) : Script Unit := do
  let options := (← get).options
  unless asCommands do Script.printLine "Current option settings"
  for (letter, name) in Options.all do
    let isOn := options.has letter
    if asCommands then Script.printLine ("set " ++ (if isOn then "-" else "+") ++ "o " ++ name)
    else Script.printLine (name.pushn ' ' (16 - name.length) ++ (if isOn then "on" else "off"))

/-- Whether the last of some arguments asks for a list of the options, and for one of commands. -/
def asksForOptions (arguments : List Octets) : Option Bool :=
  match arguments.getLast?.map String.toList with
  | some ('-' :: letters) => if letters.contains 'o' then some false else none
  | some ('+' :: letters) => if letters.contains 'o' then some true else none
  | _ => none

/-- Sets options, and then parameters if there are any or two hyphens ask for it; a
    single hyphen only ends the options.  Without arguments the variables are listed. -/
def set (arguments : List Octets) : Script Nat := do
  if arguments.isEmpty then
    Script.listVariables "" fun v => v.value.isSome
    return 0
  match Options.read false (← get).options false false arguments with
  | .error option => Script.stop ("Illegal option " ++ option)
  | .ok reading =>
    let options := reading.options
    if options.has 'm' then Script.complain "can't access tty; job control turned off"
    let options := options.turn 'm' false
    modify fun s => { s with options :=
      if reading.ending == some "-" then (options.turn 'x' false).turn 'v' false else options }
    if reading.rest.isEmpty && reading.ending.isNone then
      if let some asCommands := asksForOptions arguments then listOptions asCommands
    if !reading.rest.isEmpty || reading.ending == some "--" then setParameters reading.rest
    return 0

/-- Drops parameters. -/
def shift (arguments : List Octets) : Script Nat := do
  let n ← match arguments.head? with
    | some text => Script.countOf text
    | none => pure 1
  let parameters := (← get).parameters
  if parameters.length < n then Script.stop "can't shift that many"
  setParameters (parameters.drop n)
  return 0

/-- How an alias is shown. -/
def shownAlias (name value : Octets) : Octets := name ++ "=" ++ Print.quotedWord value

/-- How many buckets there are for aliases. -/
def aliasBuckets : Nat := 39

/-- Sets and shows aliases. -/
def setAlias (arguments : List Octets) : Script Nat := do
  if arguments.isEmpty then
    for (name, value) in Script.byBucket aliasBuckets (← get).aliases do
      Script.printLine (shownAlias name value)
  let mut status := 0
  for argument in arguments do
    let head := (argument.take 1).toString
    let (rest, value) := Script.splitAssignment (argument.drop 1).toString
    let name := head ++ rest
    let aliases := (← get).aliases
    match value, aliases.lookup name with
    | none, some value => Script.printLine (shownAlias name value)
    | none, none =>
      Script.writeMessage ("alias: " ++ argument ++ " not found\n")
      status := 1
    | some value, some _ => modify fun s => { s with aliases := aliases.map fun entry =>
        if entry.1 = name then (name, value) else entry }
    | some value, none => modify fun s => { s with aliases := aliases ++ [(name, value)] }
  return status

/-- Removes aliases. -/
def unalias (arguments : List Octets) : Script Nat := do
  let (options, names) ← Script.readOptions "a" arguments
  unless options.isEmpty do
    modify fun s => { s with aliases := [] }
    return 0
  let mut status := 0
  for name in names do
    if ((← get).aliases.lookup name).isSome then
      modify fun s => { s with aliases := s.aliases.filter fun entry => entry.1 ≠ name }
    else
      Script.writeMessage ("unalias: " ++ name ++ " not found\n")
      status := 1
  return status

end AheadOfTime.Shell.Builtin
