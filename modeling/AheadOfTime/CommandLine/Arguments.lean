import AheadOfTime.CommandLine.Option
import AheadOfTime.Path

/-! # Parsing the command line

    Options and files in any order, with one restriction: all files stand in one run of
    arguments, so files after a later option are not recognised.  Options of one letter
    may share a hyphen.  Help and version end the parsing where they are met.  A value
    that is written `--` in the argument of its option is no value: the option then has
    been given nothing. -/

namespace AheadOfTime.CommandLine

/-- What an option has been given. -/
inductive Given (α : Type) where
  | value (a : α)
  | nothing
  deriving DecidableEq, Repr

namespace Given

/-- What a value says, unless it is written `--`. -/
def ofValue (read : String → α) (value : String) : Given α :=
  if value = "--" then nothing else .value (read value)

/-- The text that has been given; nothing is shown as an empty list. -/
def text : Given String → String
  | value text => text
  | nothing => "[]"

end Given

/-- What a command line asks for. -/
structure Arguments where
  files : List Path := []
  compileOnly : Bool := false
  output : Option (Given Path) := none
  static : Bool := false
  frameworks : List (Given String) := []
  sdk : Option (Given Path) := none
  dylib : Bool := false
  compatibilityVersion : Option (Given String) := none
  currentVersion : Option (Given String) := none
  installName : Option (Given String) := none
  bundle : Bool := false
  archs : Option (List (Given String)) := none
  jobs : Given Int := .value 1
  verbose : Bool := false
  logFile : Option (Given Path) := none
  deriving DecidableEq, Repr

/-- Why the parsing of a command line ends early. -/
inductive Stop where
  | help
  | version
  | refused (error : UsageError)
  deriving DecidableEq, Repr

namespace Arguments

/-- The effect of an option without a value. -/
def setFlag (a : Arguments) : Switch → Except Stop Arguments
  | .help => .error .help
  | .version => .error .version
  | .compileOnly => .ok { a with compileOnly := true }
  | .static => .ok { a with static := true }
  | .dylib => .ok { a with dylib := true }
  | .bundle => .ok { a with bundle := true }
  | .verbose => .ok { a with verbose := true }
  | _ => .ok a

/-- The effect of an option with a value. -/
def setValue (a : Arguments) (value : String) (s : Switch) : Except Stop Arguments :=
  let path : Given Path := .ofValue Path.ofString value
  let text : Given String := .ofValue id value
  match s with
  | .output => .ok { a with output := some path }
  | .framework => .ok { a with frameworks := a.frameworks ++ [text] }
  | .sdk => .ok { a with sdk := some path }
  | .compatibilityVersion => .ok { a with compatibilityVersion := some text }
  | .currentVersion => .ok { a with currentVersion := some text }
  | .installName => .ok { a with installName := some text }
  | .arch => .ok { a with archs := some (a.archs.getD [] ++ [text]) }
  | .jobs =>
    if value = "--" then .ok { a with jobs := .nothing }
    else match Text.integer? value with
      | some jobs => .ok { a with jobs := .value jobs }
      | none => .error (.refused (.invalidJobs value))
  | .logFile => .ok { a with logFile := some path }
  | _ => .ok a

/-- The effect of several options without values, one after the other. -/
def setFlags (a : Arguments) : List Switch → Except Stop Arguments
  | [] => .ok a
  | s :: later => do (← a.setFlag s).setFlags later

/-- The effect of several options of which the last one has a value. -/
def setOption (a : Arguments) (flags : List Switch) (value : String) (s : Switch) :
    Except Stop Arguments := do
  (← a.setFlags flags).setValue value s

end Arguments

/-- The options that share one hyphen: those without a value, and the one at the end
    that still needs a value or has one. -/
structure Cluster where
  flags : List Switch
  last : Option (Switch × Option String)

/-- Takes apart an option of one letter that is followed by more characters. -/
def Cluster.ofShort (s : Switch) : List Char → Except UsageError Cluster
  | [] => .ok (if s.takesValue then ⟨[], some (s, none)⟩ else ⟨[s], none⟩)
  | c :: rest =>
    if s.takesValue then .ok ⟨[], some (s, some (String.ofList (c :: rest)))⟩
    else match Switch.ofSpelling? (String.ofList ['-', c]) with
      | none => .error (.ignoredValue s (String.ofList (c :: rest)))
      | some next => do
        let cluster ← ofShort next rest
        return { cluster with flags := s :: cluster.flags }

/-- Takes apart an option with the value in its argument. -/
def Cluster.of (s : Switch) (isShort : Bool) : Option String → Except UsageError Cluster
  | none => ofShort s []
  | some value =>
    if s.takesValue then .ok ⟨[], some (s, some value)⟩
    else if isShort ∧ value ≠ "" then ofShort s value.toList
    else .error (.ignoredValue s value)

/-- A command line half parsed: what it asks for so far, the files if their run has been
    met, and the arguments there is no use for. -/
structure Parsing where
  arguments : Arguments
  files : Option (List String)
  unused : List String

namespace Parsing

/-- Takes a run of arguments between options as the files, if there were none before. -/
def takeRun (p : Parsing) (run : List Token) : Parsing :=
  match p.files with
  | none => { p with files := some ((run.map Token.text).erase "--") }
  | some _ => { p with unused := p.unused ++ run.map Token.text }

/-- Parses tokens; the run of plain arguments in front of them has been set aside, last
    one first. -/
def tokens (p : Parsing) (run : List Token) : List Token → Except Stop Parsing
  | [] => .ok (if run = [] ∧ p.files.isSome then p else p.takeRun run.reverse)
  | .plain argument :: later => tokens p (.plain argument :: run) later
  | .separator :: later => tokens p (.separator :: run) later
  | .unknown argument :: later =>
    let p := if run = [] then p else p.takeRun run.reverse
    tokens { p with unused := p.unused ++ [argument] } [] later
  | .option s isShort value :: later =>
    let p := if run = [] then p else p.takeRun run.reverse
    match Cluster.of s isShort value with
    | .error e => .error (.refused e)
    | .ok cluster => match cluster.last, later with
      | none, later => match p.arguments.setFlags cluster.flags with
        | .ok arguments => tokens { p with arguments } [] later
        | .error stop => .error stop
      | some (s, some value), later => match p.arguments.setOption cluster.flags value s with
        | .ok arguments => tokens { p with arguments } [] later
        | .error stop => .error stop
      | some (s, none), .plain value :: later =>
        match p.arguments.setOption cluster.flags value s with
        | .ok arguments => tokens { p with arguments } [] later
        | .error stop => .error stop
      | some (s, none), _ => .error (.refused (.expectedValue s))

end Parsing

/-- What the arguments ask for. -/
def Arguments.parse (argv : List String) : Except Stop Arguments := do
  let tokens ← (Token.ofArguments argv).mapError Stop.refused
  let parsing ← Parsing.tokens ⟨{}, none, []⟩ [] tokens
  if parsing.unused ≠ [] then throw (.refused (.unrecognized parsing.unused))
  return { parsing.arguments with files := (parsing.files.getD []).map Path.ofString }

/-- The linker flags for the versions and the install name of a dynamic library; an
    empty value counts as none. -/
def Arguments.linkerFlags (a : Arguments) : List String :=
  let flag (option : String) (value : Option (Given String)) : List String :=
    match value with
    | some (.value value) => if value = "" then [] else [option, value]
    | some .nothing | none => []
  flag "-compatibility_version" a.compatibilityVersion
    ++ flag "-current_version" a.currentVersion
    ++ flag "-install_name" a.installName

end AheadOfTime.CommandLine
