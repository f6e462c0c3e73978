import AheadOfTime.Text.Digits
import AheadOfTime.Text.Quoted

/-! # The options of the command line

    Every option with its spellings, whether it takes a value, and how an argument is
    understood: as an option, perhaps with a value in the same argument, as a plain
    argument, or as neither.  A long option may be cut short as long as only one option
    starts that way. -/

namespace AheadOfTime.CommandLine

/-- An option of the command line. -/
inductive Switch where
  | help
  | compileOnly
  | output
  | static
  | framework
  | sdk
  | dylib
  | compatibilityVersion
  | currentVersion
  | installName
  | bundle
  | arch
  | jobs
  | verbose
  | logFile
  | version
  deriving DecidableEq, Repr

namespace Switch

/-- Every option, in the order of the help text. -/
def all : List Switch :=
  [help, compileOnly, output, static, framework, sdk, dylib, compatibilityVersion, currentVersion,
    installName, bundle, arch, jobs, verbose, logFile, version]

/-- The ways to write an option. -/
def spellings : Switch → List String
  | help => ["-h", "--help"]
  | compileOnly => ["-c", "--compile-only"]
  | output => ["-o"]
  | static => ["--static"]
  | framework => ["--framework"]
  | sdk => ["--sdk"]
  | dylib => ["--dylib"]
  | compatibilityVersion => ["--compatibility_version"]
  | currentVersion => ["--current_version"]
  | installName => ["--install_name"]
  | bundle => ["--bundle"]
  | arch => ["-a", "--arch"]
  | jobs => ["-j", "--jobs"]
  | verbose => ["-V", "--verbose"]
  | logFile => ["--log-file"]
  | version => ["-v", "--version"]

/-- The option as messages name it. -/
def label (s : Switch) : String := String.intercalate "/" s.spellings

/-- Whether the option takes a value. -/
def takesValue : Switch → Bool
  | output | framework | sdk | compatibilityVersion | currentVersion | installName | arch | jobs
  | logFile => true
  | help | compileOnly | static | dylib | bundle | verbose | version => false

/-- Every spelling with its option. -/
def table : List (String × Switch) := all.flatMap fun s => s.spellings.map (·, s)

/-- The option of that spelling. -/
def ofSpelling? (spelling : String) : Option Switch := table.lookup spelling

end Switch

/-- Why a command line is refused. -/
inductive UsageError where
  /-- Several options start like the argument. -/
  | ambiguous (argument : String) (spellings : List String)
  /-- The option lacks its value. -/
  | expectedValue (option : Switch)
  /-- The option takes no value but was given one. -/
  | ignoredValue (option : Switch) (value : String)
  /-- The number of jobs is no number. -/
  | invalidJobs (value : String)
  /-- There is no use for the arguments. -/
  | unrecognized (arguments : List String)
  deriving DecidableEq, Repr

namespace UsageError

/-- The error in words. -/
def message : UsageError → String
  | ambiguous argument spellings =>
    "ambiguous option: " ++ argument ++ " could match " ++ String.intercalate ", " spellings
  | expectedValue option => "argument " ++ option.label ++ ": expected one argument"
  | ignoredValue option value =>
    "argument " ++ option.label ++ ": ignored explicit argument " ++ Text.shown value
  | invalidJobs value =>
    "argument " ++ Switch.jobs.label ++ ": invalid int value: " ++ Text.shown value
  | unrecognized arguments => "unrecognized arguments: " ++ String.intercalate " " arguments

end UsageError

/-- How an argument is understood. -/
inductive Token where
  /-- An option as it was spelled, with the value that the same argument holds. -/
  | option (option : Switch) (isShort : Bool) (value : Option String)
  /-- A plain argument. -/
  | plain (argument : String)
  /-- The argument `--`, after which all arguments are plain. -/
  | separator
  /-- What looks like an option but is none. -/
  | unknown (argument : String)
  deriving DecidableEq, Repr

namespace Token

/-- Whether the token takes part in the parsing of options. -/
def isOptionLike : Token → Bool
  | option _ _ _ | unknown _ => true
  | plain _ | separator => false

/-- The argument of a token that is not an option. -/
def text : Token → String
  | plain argument | unknown argument => argument
  | separator => "--"
  | option s _ _ => s.label

/-- The text in front of the first `=` and the text after it, if there is one. -/
def splitAtEquals (cs : List Char) : List Char × Option (List Char) :=
  match cs.dropWhile (· ≠ '=') with
  | [] => (cs, none)
  | _ :: value => (cs.takeWhile (· ≠ '='), some value)

/-- Whether the text is a negative number; a line feed may follow it. -/
def isNegativeNumber (cs : List Char) : Bool :=
  let isDigit (c : Char) : Bool := (Text.digitValue? c).isSome
  let body := if cs.getLast? = some '\n' then cs.dropLast else cs
  match body with
  | '-' :: rest =>
    let fraction := rest.dropWhile isDigit
    match fraction with
    | [] => !rest.isEmpty
    | '.' :: digits => !digits.isEmpty && digits.all isDigit
    | _ => false
  | _ => false

/-- What an argument with a hyphen in front, and something after it, means when no
    option is written like that. -/
def ofUnspelled (argument : String) : Token :=
  if isNegativeNumber argument.toList ∨ ' ' ∈ argument.toList then .plain argument
  else .unknown argument

/-- Understands an argument with two hyphens in front, whose options may be cut short. -/
def ofLong (argument : String) : Except UsageError Token :=
  let (start, value) := splitAtEquals argument.toList
  match Switch.table.filter fun entry => start.isPrefixOf entry.1.toList with
  | [] => .ok (ofUnspelled argument)
  | [(_, s)] => .ok (.option s false (value.map String.ofList))
  | several => .error (.ambiguous argument (several.map (·.1)))

/-- Understands an argument with one hyphen in front: an option of one letter, with the
    rest as its value. -/
def ofShort (argument : String) : Token :=
  match Switch.ofSpelling? (String.ofList (argument.toList.take 2)) with
  | some s => .option s true (some (String.ofList (argument.toList.drop 2)))
  | none => ofUnspelled argument

/-- Understands an argument before any `--`. -/
def ofArgument (argument : String) : Except UsageError Token :=
  match argument.toList with
  | '-' :: second :: _ =>
    match Switch.ofSpelling? argument with
    | some s => .ok (.option s (second ≠ '-') none)
    | none =>
      match splitAtEquals argument.toList with
      | (spelling, some value) =>
        match Switch.ofSpelling? (String.ofList spelling) with
        | some s => .ok (.option s (second ≠ '-') (some (String.ofList value)))
        | none => if second = '-' then ofLong argument else .ok (ofShort argument)
      | (_, none) => if second = '-' then ofLong argument else .ok (ofShort argument)
  | _ => .ok (.plain argument)

/-- Understands all arguments. -/
def ofArguments : List String → Except UsageError (List Token)
  | [] => .ok []
  | argument :: later =>
    if argument = "--" then .ok (.separator :: later.map .plain)
    else do
      let token ← ofArgument argument
      return token :: (← ofArguments later)

end Token

end AheadOfTime.CommandLine
