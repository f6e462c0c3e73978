import AheadOfTime.FileTree.Disk
import AheadOfTime.Tool.Call

/-! # Rehearsed tools

    Tools that only write a short text where the real ones would write their output.
    Rules make chosen calls fail or print something.  A build with these tools shows all
    its commands without compiling anything. -/

namespace AheadOfTime

namespace Rehearsal

/-- What a rule asks of a call, and what then comes of it. -/
structure Rule where
  stage : Option String := none
  arch : Option (Option String) := none
  input : Option (Option String) := none
  /-- The rule is only for its hit of that number. -/
  nth : Option Int := none
  status : Int := 0
  output : String := ""
  deriving DecidableEq, Repr

/-- Whether `wanted`, if it is given, is the value. -/
def agrees [DecidableEq α] (wanted : Option α) (value : α) : Bool :=
  match wanted with
  | some wanted => wanted = value
  | none => true

/-- Whether a rule is about a call. -/
def Rule.applies (r : Rule) (c : Call) : Bool :=
  agrees r.stage c.stage.name && agrees r.arch c.arch && agrees r.input c.input

/-- The first rule for a call, given how often each rule has been hit, and the counts after it. -/
def consult (c : Call) : List (Rule × Nat) → Option Rule × List (Rule × Nat)
  | [] => (none, [])
  | (rule, hits) :: later =>
    let others := consult c later
    if rule.applies c then
      if agrees rule.nth (hits + 1 : Int) then (some rule, (rule, hits + 1) :: later)
      else (others.1, (rule, hits + 1) :: others.2)
    else (others.1, (rule, hits) :: others.2)

/-- How often each rule has been hit by the calls so far. -/
def hits (rules : List Rule) (calls : List Call) : List (Rule × Nat) :=
  calls.foldl (fun counts c => (consult c counts).2) (rules.map (·, 0))

end Rehearsal

/-- The behaviour of rehearsed tools. -/
structure Rehearsal where
  rules : List Rehearsal.Rule := []
  symbols : List (String × String) := []
  backendHelp : String :=
    "USAGE: llc [options] <input bitcode>\n" ++
    "  -disable-cfi          - Do not use .cfi_* directives\n" ++
    "  -march=<string>       - Architecture to generate code for\n"
  deriving DecidableEq, Repr

namespace Rehearsal

/-- Writes a file in a directory that is made if it is not there. -/
def write (path text : String) : Disk Unit := do
  Disk.makeDirectories (Path.ofString path).parent
  Disk.writeText (.ofString path) text

/-- The argument behind an option; a fault if the option is the last argument. -/
def argumentAfter (option : String) (argv : List String) : Disk String :=
  match following option argv with
  | some argument => return argument
  | none => throw .missingArgument

/-- What a tool writes in a call that succeeds. -/
def work (c : Call) : Disk Unit := do
  let argv := c.argv
  match c.stage with
  | .frontend =>
    if argv.contains "--emit-llvm" then
      write (← argumentAfter "--emit-llvm" argv)
        ("bitcode for " ++ argv.getLast?.getD "" ++ "\n")
  | .backend =>
    match argv.find? fun argument => "-o=".toList.isPrefixOf argument.toList with
    | some argument => write (String.ofList (argument.toList.drop 3)) "assembly\n"
    | none => return ()
  | .merge =>
    if argv.contains "-output" then
      write (← argumentAfter "-output" argv)
        ("fat:" ++ String.intercalate "," ((argv.drop 2).dropLast.dropLast) ++ "\n")
  | .glue =>
    if argv.contains "-o" then
      if let some source := preceding "-o" argv then
        let _ ← Disk.readText (.ofString source)
      write (← argumentAfter "-o" argv) "glue output\n"
  | .assemble => if argv.contains "-o" then write (← argumentAfter "-o" argv) "assemble output\n"
  | .link => if argv.contains "-o" then write (← argumentAfter "-o" argv) "link output\n"
  | .probe | .symbols | .strip | .other _ => return ()

/-- What a tool prints in a call that no rule is about. -/
def print (r : Rehearsal) (c : Call) : String :=
  match c.stage with
  | .probe => r.backendHelp
  | .symbols => (r.symbols.lookup (c.argv.getLast?.getD "")).getD ""
  | _ => ""

/-- The source that a call compiled as glue, unless a rule made the call fail. -/
def glueOf (e : Exchange) : Option String :=
  match e.call.stage, e.reply, preceding "-o" e.call.argv with
  | .glue, .exited 0 _, some source | .glue, .failed _, some source =>
    (Disk.readText (.ofString source)).run e.found |>.1.toOption
  | _, _, _ => none

/-- The rehearsed tools. -/
def toolset (r : Rehearsal) : Toolset := fun exchanges c files =>
  let rule := (consult c (hits r.rules (exchanges.map Exchange.call))).1
  match rule.filter (·.status ≠ 0) with
  | some rule => (.exited rule.status rule.output, files)
  | none => match (work c).run files with
    | (.ok (), files) => (.exited 0 ((rule.map Rule.output).getD (r.print c)), files)
    | (.error fault, files) => (.failed fault, files)

end Rehearsal

end AheadOfTime
