import AheadOfTime.System.Shell.Search

/-! # The working directory

    Changing and printing the working directory.  A script sees the directory under the
    path by which it has come there, with the links it has gone through. -/

namespace AheadOfTime.Shell.Builtin

/-- Notes the working directory: the path by which the script has come there, or the one
    that the system gives it. -/
def noteDirectory (path : Option Octets) : Script Unit := do
  let physical : Script Octets := do
    match ← Script.ask .workingDirectory with
    | .ok path => return path
    | .error _ => return ""
  match path with
  | none =>
    let path ← physical
    modify fun s => { s with directory := some path, physicalDirectory := path }
  | some path =>
    let before := (← get).directory
    if before = some path then
      let path ← physical
      modify fun s => { s with physicalDirectory := path }
    else modify fun s => { s with directory := some path, physicalDirectory := "" }
  Script.put "PWD" { value := (← get).directory, isExported := true }

/-- The path that results from going from one path along another one, name by name. -/
def joined (base : Octets) (path : Octets) : Octets :=
  let isAbsolute := path.startsWith "/"
  let start := if isAbsolute then path else base
  let hasTwo := start.startsWith "//" && !start.startsWith "///"
  let names := Text.pieces '/' (if isAbsolute then path else base ++ "/" ++ path)
  let along := names.foldl (fun (along : List Octets) name =>
    if name = "" || name = "." then along
    else if name = ".." then along.drop 1
    else name :: along) []
  (if hasTwo then "//" else "/") ++ String.intercalate "/" along.reverse

/-- Whether the options ask for the directory as it is: the last one counts. -/
def asksForPhysical (options : List (Char × Octets)) : Bool :=
  (options.getLast?.map Prod.fst) == some 'P'

/-- Goes to a directory; answers whether that was possible. -/
def goTo (isPhysical : Bool) (path : Octets) : Script Bool := do
  let s ← get
  let logical := if isPhysical then none
    else if path.startsWith "/" then some (joined "" path)
    else match s.directory with
      | some "" | none => none
      | some base => some (joined base path)
  match ← Script.ask (.changeDirectory (logical.getD path)) with
  | .error _ => return false
  | .ok () =>
    Script.put "OLDPWD" { value := some (s.directory.getD ""), isExported := true }
    noteDirectory logical
    modify fun s => { s with hashed := s.hashed.map fun (name, entry) =>
      (name, { entry with isStale := entry.place.isSome }) }
    return true

/-- Whether a path is looked up as it is, and not along a list of directories. -/
def isDirect (path : Octets) : Bool :=
  path.startsWith "/" || (["", ".", ".."].contains
    ((Text.pieces '/' path).headD "") && path ≠ "")

/-- Changes the working directory. -/
def cd (arguments : List Octets) : Script Nat := do
  let (options, rest) ← Script.readOptions "LP" arguments
  let isPhysical := asksForPhysical options
  let (target, isBack) ← match rest.head? with
    | none => pure ((← Script.valueOf? "HOME").getD "", false)
    | some "-" => pure ((← Script.valueOf? "OLDPWD").getD "", true)
    | some path => pure (path, false)
  let path := if target = "" then "." else target
  let found ← if isDirect target then pure none
    else match ← Script.valueOf? "CDPATH" with
      | none => pure none
      | some list => along path (Text.pieces ':' list)
  let (path, isTold) := found.getD (path, false)
  unless ← goTo isPhysical path do Script.stop ("can't cd to " ++ target)
  if isBack || isTold then Script.printLine ((← get).directory.getD "")
  return 0
where
  /-- The first directory with that path along a list, and whether it is named in the list. -/
  along (path : Octets) : List Octets → Script (Option (Octets × Bool))
    | [] => return none
    | directory :: later => do
      let candidate := if directory = "" then path else directory ++ "/" ++ path
      match ← Script.ask (.statusAt candidate true) with
      | .ok status =>
        if status.kind = .directory then return some (candidate, directory ≠ "")
        along path later
      | .error _ => along path later

/-- Prints the working directory. -/
def pwd (arguments : List Octets) : Script Nat := do
  let (options, _) ← Script.readOptions "LP" arguments
  if asksForPhysical options then
    if (← get).physicalDirectory = "" then
      if let .ok path ← Script.ask .workingDirectory then
        modify fun s => { s with physicalDirectory := path }
    Script.printLine (← get).physicalDirectory
  else Script.printLine ((← get).directory.getD "")
  return 0

end AheadOfTime.Shell.Builtin
