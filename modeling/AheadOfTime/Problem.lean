import AheadOfTime.Report
import AheadOfTime.Target

/-! # Problems

    What a build can complain about, by cause.  A problem determines its report: code,
    sentence, hint and context. -/

namespace AheadOfTime

/-- The tools of a toolchain, by what they do. -/
inductive ToolRole where
  | frontend
  | backend
  | cc
  | lipo
  | nm
  | strip
  deriving DecidableEq, Repr

namespace ToolRole

/-- Every role, in the order in which tools are looked up. -/
def all : List ToolRole := [frontend, backend, cc, lipo, nm, strip]

/-- The name of a role. -/
def name : ToolRole → String
  | frontend => "frontend"
  | backend => "backend"
  | cc => "cc"
  | lipo => "lipo"
  | nm => "nm"
  | strip => "strip"

/-- The environment variable that sets the tool for a role. -/
def variableName (r : ToolRole) : String := "AOTC_" ++ r.name.toUpper

end ToolRole

/-- A cause for which a build, or a step of one, is refused or fails. -/
inductive Problem where
  /-- The symbol is no identifier of C. -/
  | invalidEntryPoint (symbol : String)
  /-- There is no kind of output of that name. -/
  | unknownKind (name : String)
  /-- There is no architecture of that name. -/
  | unsupportedArch (name : String)
  /-- A request has to name an architecture. -/
  | noArchs
  /-- A request has to name an input. -/
  | noInputs
  /-- A request needs at least one job. -/
  | tooFewJobs (jobs : Int)
  /-- Only executables can be static. -/
  | staticNeedsExecutable (kind : OutputKind)
  /-- One output cannot hold what several inputs give. -/
  | oneOutputForMany (kind : OutputKind) (inputs : Nat)
  /-- Two flags that exclude each other. -/
  | conflictingFlags (first second : String)
  /-- The glue of a bundle is for one unit. -/
  | bundleGlueUnits (units : Nat)
  /-- The glue of a bundle needs an entry point. -/
  | bundleGlueEntryPoint (input : Path)
  /-- No glue belongs to that kind of output. -/
  | noGlue (kind : String)
  /-- The program body is missing: there is no input, or the first one has no entry point. -/
  | noProgramBody (input : Option Path)
  /-- The listing of a first input that is an object shows no entry point. -/
  | noEntryPointListed (input : Path)
  /-- The scratch directory has been removed for good. -/
  | scratchClosed (stem : String)
  /-- The SDK is no directory. -/
  | sdkMissing (sdk : Path)
  /-- The library for static executables is not there. -/
  | staticLibraryMissing (library : Path)
  /-- A dynamic library needs an output path. -/
  | outputRequired
  /-- The input is no regular file. -/
  | unreadableInput (input : Path)
  /-- The input has an extension that the kind of output cannot use. -/
  | unsupportedInput (input : Path) (kind : OutputKind) (allowed : List String)
  /-- A dynamic library is the first input of an executable. -/
  | libraryAsProgramBody (input : Path)
  /-- No executable was found for a tool. -/
  | toolNotFound (role : ToolRole) (name : String)
  /-- The program of a command does not exist. -/
  | toolNotStarted (program : String)
  /-- A tool ended with a status other than zero. -/
  | toolFailed (tool stage : String) (input arch : Option String) (exit : ToolExit)
  /-- There is nothing to merge. -/
  | nothingToMerge (output : Path)
  deriving DecidableEq, Repr

namespace Problem

/-- What to do about an executable that lacks its program body. -/
def programBodyHint : String :=
  "List a source module (or an object compiled from one) first."

/-- What is wrong with an executable that lacks its program body. -/
def programBodyText : String :=
  "The first input must provide an entry point to serve as the program body."

/-- The problem as it is shown. -/
def report : Problem → Report
  | invalidEntryPoint symbol =>
    .of .validation "Entry point is not a valid C identifier."
      (some "Entry points must match [A-Za-z_][A-Za-z0-9_]*.") [("symbol", symbol)]
  | unknownKind name =>
    .of .validation ("Unknown output kind `" ++ name ++ "`.") none
      [("supported", OutputKind.supported)]
  | unsupportedArch name =>
    .of .invalidArch ("Unsupported architecture `" ++ name ++ "`.")
      (some "Pick architectures from the supported set.")
      [("arch", name), ("supported", Arch.supported)]
  | noArchs =>
    .of .invalidArch "At least one target architecture is required." none
      [("supported", Arch.supported)]
  | noInputs =>
    .of .invalidInput "No input files given."
      (some "Pass at least one source module or object file.") []
  | tooFewJobs jobs =>
    .of .validation "Job count must be at least 1." none [("jobs", toString jobs)]
  | staticNeedsExecutable kind =>
    .of .conflictingOptions "Static compilation is only available when building an executable."
      none [("kind", kind.name)]
  | oneOutputForMany kind inputs =>
    .of .conflictingOptions
      "An explicit output path cannot be used with multiple inputs in this mode."
      (some "Drop -o to get one output per input file.")
      [("kind", kind.name), ("inputs", toString inputs)]
  | conflictingFlags first second =>
    .of .conflictingOptions ("Cannot use --" ++ first ++ " and --" ++ second ++ " together.") none
      [("flags", first ++ "," ++ second)]
  | bundleGlueUnits units =>
    .of .validation "Bundle glue takes exactly one compiled unit." none
      [("inputs", toString units)]
  | bundleGlueEntryPoint input =>
    .of .validation "Bundle glue requires a compiled unit with an entry point." none
      [("input", input.toString)]
  | noGlue kind => .of .validation ("No glue is generated for `" ++ kind ++ "` outputs.") none []
  | noProgramBody input =>
    .of .invalidFirstInput programBodyText (some programBodyHint)
      [("input", (input.map Path.toString).getD "")]
  | noEntryPointListed input =>
    .of .invalidFirstInput programBodyText (some programBodyHint)
      [("input", input.toString), ("stage", "symbols")]
  | scratchClosed stem =>
    .of .validation "Temporary session was already cleaned up." none [("stem", stem)]
  | sdkMissing sdk =>
    .of .invalidSdk "SDK path does not exist." (some "Point --sdk at an installed SDK root.")
      [("sdk", sdk.toString)]
  | staticLibraryMissing library =>
    .of .unsupportedStatic "This toolchain cannot build static executables."
      (some "Install the static runtime library or drop --static.")
      [("library", library.toString)]
  | outputRequired =>
    .of .missingOutput "Building a dynamic library requires an explicit output path."
      (some "Pass -o <name>.dylib.") []
  | unreadableInput input =>
    .of .invalidInput "Can't read input file." none [("input", input.toString)]
  | unsupportedInput input kind allowed =>
    .of .invalidInput ("Input has an unsupported extension for `" ++ kind.name ++ "` builds.")
      (some ("Expected one of: " ++ String.intercalate ", " allowed ++ "."))
      [("input", input.toString), ("kind", kind.name)]
  | libraryAsProgramBody input =>
    .of .invalidFirstInput "A dynamic library cannot serve as the program body."
      (some programBodyHint) [("input", input.toString)]
  | toolNotFound role name =>
    .of .toolNotFound ("Required tool `" ++ name ++ "` was not found.")
      (some ("Install it or point " ++ role.variableName ++ " at the executable."))
      [("tool", role.name), ("name", name)]
  | toolNotStarted program =>
    .of .toolNotFound ("Unable to execute `" ++ program ++ "`.")
      (some "Ensure the toolchain is installed and the path is executable.")
      [("tool", program)]
  | toolFailed tool stage input arch exit =>
    .ofToolExit ("`" ++ tool ++ "` failed during " ++ stage ++ ".")
      (some "Inspect the captured tool output for details.")
      [("stage", stage), ("input", input.getD ""), ("arch", arch.getD "")] exit
  | nothingToMerge output =>
    .of .validation "Cannot merge an empty set of objects." none [("output", output.toString)]

end Problem

/-- Why a step of a build stops: a problem that the build reports, or a fault. -/
inductive Failure where
  | problem (problem : Problem)
  | fault (fault : Fault)
  deriving DecidableEq, Repr

end AheadOfTime
