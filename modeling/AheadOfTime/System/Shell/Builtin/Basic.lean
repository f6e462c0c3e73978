import AheadOfTime.System.Shell.Builtin.Directory
import AheadOfTime.System.Shell.Builtin.Naming
import AheadOfTime.System.Shell.Builtin.Reading
import AheadOfTime.System.Shell.Builtin.Signals
import AheadOfTime.System.Shell.Condition

/-! # Builtins

    The commands that a shell runs itself and that run no other commands.  Each takes
    its arguments and answers its status. -/

namespace AheadOfTime.Shell.Builtin

/-- A builtin. -/
abbrev Action := List Octets → Script Nat

/-- Prints the arguments, with escapes. -/
def echo : Action := fun arguments => do
  Script.print (Print.echo arguments)
  return 0

/-- Prints a format. -/
def printf : Action := fun arguments => do
  let (_, rest) ← Script.readOptions "" arguments
  match rest with
  | [] => Script.stop "usage: printf format [arg ...]"
  | format :: arguments =>
    let printed := Print.printf format arguments
    for complaint in printed.complaints do
      Script.complain complaint
    Script.print (String.ofList printed.text)
    return if printed.isWrong then 2 else if printed.complaints.isEmpty then 0 else 1

/-- Decides a condition. -/
def test : Action := fun arguments => do
  return if ← Condition.holds arguments then 0 else 1

/-- Decides a condition in brackets. -/
def bracket : Action := fun arguments =>
  if arguments.getLast? == some "]" then test arguments.dropLast else Script.stop "missing ]"

/-- Leaves loops, or goes on with them; at most those are meant that are running. -/
def jump (skip : Nat → Skip) : Action := fun arguments => do
  let n ← match arguments.head? with
    | none => pure 1
    | some text =>
      let n ← Script.countOf text
      if n = 0 then Script.stopAtNumber text else pure n
  let loops := (← get).loops
  if 0 < loops then modify fun s => { s with skip := some (skip (min n loops)) }
  return 0

/-- Leaves a function or a file. -/
def return_ : Action := fun arguments => do
  match arguments.head? with
  | some text =>
    let n ← Script.countOf text
    modify fun s => { s with skip := some .finish }
    return n
  | none =>
    modify fun s => { s with skip := some .finishAsIs }
    return (← get).status

/-- Ends the script. -/
def exit : Action := fun arguments => do
  if let some text := arguments.head? then
    let n ← Script.countOf text
    modify fun s => { s with savedStatus := some n }
  throw .exit

/-- Says what commands are. -/
def type : Action := fun arguments => do
  let mut status := 0
  for name in arguments do
    status := status ||| (← Script.describe true none name)
  return status

/-- Says what a command is, in words or by a text that calls it. -/
def command : Action := fun arguments => do
  let (options, names) ← Script.readOptions "pvV" arguments
  let has (letter : Char) : Bool := options.any fun option => option.1 == letter
  match names.head? with
  | some name =>
    if has 'v' || has 'V' then
      let path := if has 'p' then some Variable.defaultSearchPath else none
      Script.describe (has 'V') path name
    else return 0
  | none => return 0

/-- The permissions of a mask as letters, for the owner, the group and others. -/
def shownMask (mask : Nat) : Octets :=
  let letters (bits : Nat) : Octets :=
    String.join ([(4, "r"), (2, "w"), (1, "x")].map fun (bit, letter) =>
      if bits &&& bit = 0 then letter else "")
  String.intercalate "," [("u=" ++ letters (mask >>> 6)), ("g=" ++ letters (mask >>> 3)),
    ("o=" ++ letters mask)]

/-- The permissions that changes written in letters leave, if the text is well formed. -/
def changedPermissions (permissions : Nat) (text : List Char) : Option Nat :=
  go text.length permissions 0 text
where
  /-- Goes on with the changes for some users. -/
  go : Nat → Nat → Nat → List Char → Option Nat
    | 0, new, _, text => if text.isEmpty then some new else none
    | _, new, _, [] => some new
    | n + 1, new, users, text =>
      let who := text.takeWhile "augo".toList.contains
      let bitsOf (c : Char) : Nat :=
        match c with
        | 'u' => 0o100
        | 'g' => 0o010
        | 'o' => 0o001
        | _ => 0o111
      let users := who.foldl (fun users c => users ||| bitsOf c) users
      let users := if users = 0 then 0o111 else users
      match text.drop who.length with
      | sign :: rest =>
        if !"=+-".toList.contains sign then none
        else
          let letters := rest.takeWhile "rwxugoXs".toList.contains
          let valueOf (c : Char) : Nat :=
            match c with
            | 'r' => 4
            | 'w' => 2
            | 'x' => 1
            | 'u' => permissions >>> 6
            | 'g' => permissions >>> 3
            | 'o' => permissions
            | 'X' => if permissions &&& 0o111 = 0 then 0 else 1
            | _ => 0
          let value := (letters.foldl (fun value c => value ||| valueOf c) 0 &&& 7) * users
          let new := match sign with
            | '-' => new &&& (0o777 ^^^ value)
            | '=' => value ||| (new &&& (0o777 ^^^ (users * 7)))
            | _ => new ||| value
          match rest.drop letters.length with
          | ',' :: rest => go n new 0 rest
          | sign :: rest =>
            if "=+-".toList.contains sign then go n new users (sign :: rest) else none
          | [] => some new
      | [] => none

/-- Sets or shows the permissions that new files do not get. -/
def umask : Action := fun arguments => do
  let (options, rest) ← Script.readOptions "S" arguments
  let mask : Nat ← Script.ask (.setMask 0)
  let _ ← Script.ask (.setMask mask)
  match rest with
  | [] =>
    let digits := String.ofList (Nat.toDigits 8 mask)
    Script.printLine (if options.isEmpty then "".pushn '0' (4 - digits.length) ++ digits
      else shownMask mask)
  | text :: _ =>
    if (text.toList.head?).any Char.isDigit then
      unless text.toList.all (Number.isDigitOf 8) do Script.stopAtNumber text
      discard (Script.ask (.setMask (Number.ofDigits 8 text.toList)))
    else match changedPermissions (0o777 ^^^ mask) text.toList with
      | some permissions => discard (Script.ask (.setMask (0o777 ^^^ permissions)))
      | none => Script.stop ("Illegal mode: " ++ text)
  return 0

/-- The builtins that run no other commands. -/
def action? (name : Octets) : Option Action :=
  match name with
  | ":" | "true" => some fun _ => return 0
  | "false" => some fun _ => return 1
  | "[" => some bracket
  | "alias" => some setAlias
  | "break" => some (jump .leave)
  | "cd" | "chdir" => some cd
  | "command" => some command
  | "continue" => some (jump .again)
  | "echo" => some echo
  | "exit" => some exit
  | "export" => some export_
  | "getopts" => some getopts
  | "jobs" => some jobs
  | "kill" => some kill
  | "local" => some local_
  | "printf" => some printf
  | "pwd" => some pwd
  | "read" => some read
  | "readonly" => some readonly
  | "return" => some return_
  | "set" => some set
  | "shift" => some shift
  | "test" => some test
  | "trap" => some trap
  | "type" => some type
  | "umask" => some umask
  | "unalias" => some unalias
  | "unset" => some unset
  | "wait" => some wait
  | _ => none

end AheadOfTime.Shell.Builtin
