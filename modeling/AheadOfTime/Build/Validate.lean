import AheadOfTime.Request
import AheadOfTime.Toolchain.Basic
import AheadOfTime.World

/-! # Validating requests

    Everything about a request that can be checked without running a tool or touching a
    file.  The checks are made in a fixed order and the first one that fails is
    reported.  A valid request may still contain options that have no effect, which are
    warned about. -/

namespace AheadOfTime

/-- The linker options that take a value and that only dynamic libraries accept. -/
def dylibOnlyOptions : List String :=
  ["-compatibility_version", "-current_version", "-install_name"]

/-- The linker flags without the options for dynamic libraries and their values. -/
def withoutDylibOptions : List String → List String
  | [] => []
  | [flag] => if flag ∈ dylibOnlyOptions then [] else [flag]
  | flag :: next :: later =>
    if flag ∈ dylibOnlyOptions then withoutDylibOptions later
    else flag :: withoutDylibOptions (next :: later)

namespace Request

/-- The extensions that inputs may have. -/
def allowedExtensions (r : Request) (t : Toolchain) : List String :=
  if r.kind.isPerInput then [t.sourceExtension]
  else t.sourceExtension :: t.objectExtension :: t.libraryExtensions

/-- The toolchain to build with, as it lies inside the request's SDK. -/
def layout (r : Request) (t : Toolchain) : Toolchain :=
  match r.sdk with
  | some sdk => t.forSdk sdk
  | none => t

/-- The answer of a look at the files, whose fault is a failure. -/
def looked (answer : Except Fault Bool) : Except Failure Bool := answer.mapError Failure.fault

/-- Checks that the SDK is there. -/
def checkSdk (r : Request) (files : FileTree) : Except Failure Unit := do
  if let some sdk := r.sdk then
    if !(← looked (files.isDirectory? sdk)) then throw (.problem (.sdkMissing sdk))

/-- Checks that a static executable can be linked. -/
def checkStatic (r : Request) (t : Toolchain) (files : FileTree) : Except Failure Unit := do
  if r.static then
    let library := (r.layout t).staticLibraryPath
    if !(← looked (files.exists? library)) then throw (.problem (.staticLibraryMissing library))

/-- Checks that a dynamic library has an output. -/
def checkOutput (r : Request) : Except Failure Unit := do
  if r.kind = .dylib ∧ r.output = none then throw (.problem .outputRequired)

/-- Checks that an input is a file of an allowed extension. -/
def checkInput (r : Request) (t : Toolchain) (files : FileTree) (input : Path) :
    Except Failure Unit := do
  if !(← looked (files.isFile? input)) then throw (.problem (.unreadableInput input))
  let allowed := r.allowedExtensions t
  if input.extension ∉ allowed then throw (.problem (.unsupportedInput input r.kind allowed))

/-- Checks inputs one after the other. -/
def checkInputs (r : Request) (t : Toolchain) (files : FileTree) :
    List Path → Except Failure Unit
  | [] => return ()
  | input :: later => do
    r.checkInput t files input
    r.checkInputs t files later

/-- Checks that an executable does not start with a dynamic library. -/
def checkProgramBody (r : Request) (t : Toolchain) : Except Failure Unit := do
  if let some first := r.inputs.head? then
    if r.kind = .executable ∧ first.extension ∈ (r.layout t).libraryExtensions then
      throw (.problem (.libraryAsProgramBody first))

/-- Every check of a request, in order. -/
def check (r : Request) (t : Toolchain) (files : FileTree) : Except Failure Unit := do
  r.checkSdk files
  r.checkStatic t files
  r.checkOutput
  r.checkInputs t files r.inputs
  r.checkProgramBody t

/-- The linker options of the request that are reported to have no effect. -/
def ignoredOptions (r : Request) : List String :=
  if r.kind = .dylib then [] else r.linkerFlags.filter (· ∈ dylibOnlyOptions)

/-- The warnings about options of the request that have no effect. -/
def notices (r : Request) : List Notice :=
  (if r.frameworks ≠ [] ∧ r.kind ≠ .executable then [.ignoredFrameworks r.kind] else [])
    ++ (if r.ignoredOptions ≠ [] then [.ignoredLinkerOptions r.kind r.ignoredOptions] else [])

end Request

/-- Checks a request and answers the toolchain to build it with. -/
def Toolchain.validate (t : Toolchain) (r : Request) : Build Toolchain := do
  Build.ofResult (r.check t (← get).files)
  r.notices.forM Build.warn
  return r.layout t

end AheadOfTime
