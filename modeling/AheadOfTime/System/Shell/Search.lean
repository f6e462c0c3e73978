import AheadOfTime.System.Image
import AheadOfTime.System.Shell.Parser
import AheadOfTime.System.Shell.Variables

/-! # Finding commands

    What the name of a command stands for: a builtin, a function, or a program that lies
    in one of the directories of the search path.  Where programs have been found is
    noted. -/

namespace AheadOfTime.Shell

/-- What a name stands for. -/
inductive Finding where
  | builtin
  | function (body : Command)
  /-- A program, at a place in the search path unless the name holds a slash. -/
  | program (place : Option Nat)
  | unknown

/-- The kinds of builtins. -/
structure BuiltinKind where
  /-- Errors of the builtin end the script, and assignments in front of it last. -/
  isSpecial : Bool := false
  /-- The builtin is found whatever the search path says. -/
  isRegular : Bool := true
  /-- Arguments that are assignments are not split. -/
  declares : Bool := false
  deriving DecidableEq, Repr

namespace Builtin

/-- The builtins with their kinds. -/
def kinds : List (Octets × BuiltinKind) :=
  let special : BuiltinKind := { isSpecial := true }
  let declaring : BuiltinKind := { isSpecial := true, declares := true }
  let plain : BuiltinKind := { isRegular := false }
  [(".", special), (":", special), ("[", plain), ("alias", { declares := true }),
    ("break", special), ("cd", {}), ("chdir", {}), ("command", {}), ("continue", special),
    ("echo", plain), ("eval", special), ("exec", special), ("exit", special),
    ("export", declaring), ("false", {}), ("getopts", {}),
    ("jobs", {}), ("kill", plain), ("local", declaring), ("printf", plain), ("pwd", {}),
    ("read", {}), ("readonly", declaring), ("return", special), ("set", special),
    ("shift", special), ("test", plain), ("trap", special), ("true", {}),
    ("type", {}), ("umask", {}), ("unalias", {}), ("unset", special),
    ("wait", {})]

/-- The kind of the builtin with that name. -/
def kind? (name : Octets) : Option BuiltinKind := kinds.lookup name

end Builtin

namespace Script

/-- The paths at which a program may lie, in the order of the search path. -/
def candidates (searchPath name : Octets) : List Octets :=
  (Text.pieces ':' searchPath).map fun directory =>
    if directory = "" then name else directory ++ "/" ++ name

/-- Forgets what a name has been found to stand for. -/
def forget (name : Octets) : Script Unit := modify fun s => { s with
  hashed := s.hashed.filter fun entry => entry.1 ≠ name }

/-- Notes what a name stands for. -/
def remember (name : Octets) (entry : Hashed) : Script Unit := modify fun s =>
  if (s.hashed.lookup name).isSome then
    { s with hashed := s.hashed.map fun old => if old.1 = name then (name, entry) else old }
  else { s with hashed := s.hashed ++ [(name, entry)] }

/-- Looks for a program from a place on; answers where it lies, or why it is not found. -/
def searchFrom (reason : Refusal) : List (Nat × Octets) → Script (Except Refusal Nat)
  | [] => return .error reason
  | (place, path) :: later => do
    match ← ask (.statusAt path true) with
    | .error other => searchFrom (if Image.isAbsence other then reason else other) later
    | .ok status =>
      if status.kind = .regular && status.mode &&& 0o111 ≠ 0 then return .ok place
      searchFrom .permission later

/-- How a command is looked for. -/
structure Search where
  /-- Only builtins are of interest that are found before programs are. -/
  forBuiltins : Bool := false
  passesFunctions : Bool := false
  complains : Bool := false
  /-- A name with a slash stands for nothing if there is no such file. -/
  looks : Bool := false
  /-- Where programs are looked for if not in the usual places. -/
  searchPath : Option Octets := none

/-- Looks for a program along the search path; what is found is noted if `isNoted`. -/
def findProgram (search : Search) (name : Octets) (stale : Option Hashed) (isNoted : Bool) :
    Script Finding := do
  let path ← match search.searchPath with
    | some path => pure path
    | none => searchPath
  let paths := candidates path name
  let places : List (Nat × Octets) := (List.range paths.length).zip paths
  let known := stale.bind Hashed.place
  let isKnown (entry : Nat × Octets) : Bool := known == some entry.1 && entry.2.startsWith "/"
  let remaining : List (Nat × Octets) := match known with
    | some n => places.filter fun (entry : Nat × Octets) => n ≤ entry.1 || !entry.2.startsWith "/"
    | none => places
  let first := remaining.takeWhile fun entry => !isKnown entry
  let found ← match ← searchFrom .noEntry first, known with
    | .error reason, some n =>
      if remaining.any isKnown then pure (.ok n) else pure (.error reason)
    | found, _ => pure found
  match found with
  | .ok place =>
    if isNoted then remember name { place := some place }
    return .program (some place)
  | .error reason =>
    if stale.isSome && isNoted then forget name
    if search.complains then complain (name ++ ": " ++ refusalText "not found" reason)
    return .unknown

/-- Looks for what a name stands for that nothing is known of. -/
def findAnew (search : Search) (name : Octets) (stale : Option Hashed) (isNoted : Bool) :
    Script Finding := do
  match Builtin.kind? name with
  | some kind =>
    if search.searchPath.isSome && search.forBuiltins && !kind.isRegular then return .unknown
    if isNoted then remember name { place := none }
    return .builtin
  | none =>
    if search.forBuiltins then return .unknown
    findProgram search name stale isNoted

/-- Looks for what a name stands for. -/
def find (search : Search) (name : Octets) : Script Finding := do
  if name.contains '/' then
    if search.looks then
      if let .error _ ← ask (.statusAt name true) then return .unknown
    return .program none
  let s ← get
  match s.functions.lookup name, s.hashed.lookup name with
  | some body, _ =>
    if search.passesFunctions then findAnew search name none false else return .function body
  | none, some entry =>
    match entry.place with
    | some _ =>
      if search.forBuiltins then return .unknown
      if search.searchPath.isSome then return ← findAnew search name none false
      if entry.isStale then findAnew search name (some entry) true else return .program entry.place
    | none =>
      if search.forBuiltins && !((Builtin.kind? name).any (·.isRegular)) then return .unknown
      return .builtin
  | none, none => findAnew search name none search.searchPath.isNone

/-- Says what a name stands for, in words or by a text that calls it; answers a status. -/
def describe (inWords : Bool) (path : Option Octets) (name : Octets) : Script Nat := do
  if inWords then print name
  let say (words text : Octets) : Script Nat := do
    printLine (if inWords then words else text)
    return 0
  if keywords.contains name then return ← say " is a shell keyword" name
  if let some value := (← get).aliases.lookup name then
    return ← say (" is an alias for " ++ value) ("alias " ++ name ++ "=" ++ Print.quotedWord value)
  let s ← get
  let known := if path.isNone && (s.functions.lookup name).isNone then s.hashed.lookup name
    else none
  let isTracked := (known.bind Hashed.place).isSome
  let finding ← match known with
    | some ⟨some place, _⟩ => pure (Finding.program (some place))
    | some ⟨none, _⟩ => pure Finding.builtin
    | none => find { looks := true, searchPath := path } name
  match finding with
  | .program place =>
    let along ← match path with
      | some path => pure path
      | none => searchPath
    let path := match place with
      | some n => (candidates along name)[n]?.getD name
      | none => name
    say (" is" ++ (if isTracked then " a tracked alias for" else "") ++ " " ++ path) path
  | .function _ => say " is a shell function" name
  | .builtin =>
    let isSpecial := (Builtin.kind? name).any BuiltinKind.isSpecial
    say (" is a " ++ (if isSpecial then "special " else "") ++ "shell builtin") name
  | .unknown =>
    if inWords then printLine ": not found"
    return 127

end Script

end AheadOfTime.Shell
