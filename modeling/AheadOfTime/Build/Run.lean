import AheadOfTime.Build.Compile
import AheadOfTime.Build.Link
import AheadOfTime.Build.Validate
import AheadOfTime.SymbolListing
import AheadOfTime.Toolchain.Probe

/-! # Building

    A build validates its request, looks up its tools, and then works in a scratch
    session that is cleaned up however the build ends.  What is built directly from
    sources is compiled input by input.  What is linked has its ready-made objects
    looked into first, so that an executable without a program body fails before
    anything is compiled. -/

namespace AheadOfTime

/-- How the tools of a toolchain are found. -/
inductive Locator where
  /-- The tools are where these paths say. -/
  | fixed (tools : ToolPaths)
  /-- The tools are looked for, also along the search path. -/
  | search (searchPath : String)

/-- What builds have in common. -/
structure Builder where
  host : Host
  toolchain : Toolchain := {}
  locator : Locator
  scratchParent : Option Path := none

/-- What came of a build. -/
structure BuildResult where
  artifacts : List Path
  log : Log

namespace Locator

/-- The tools of a toolchain. -/
def locate (l : Locator) (t : Toolchain) : Build ToolPaths := do
  match l with
  | fixed tools => return tools
  | search searchPath => Build.ofResult (t.locateTools (← get).files searchPath)

end Locator

namespace Request

/-- The record that starts a build. -/
def startRecord (r : Request) : Record where
  operation := "build_start"
  stage := some "validate"
  message := "Building " ++ r.kind.name ++ " from " ++ toString r.inputs.length ++ " input(s)."
  extra := some [("archs", .arr (r.archs.map fun arch => .str arch.name))]

/-- The record that ends a successful build. -/
def completeRecord (artifacts : List Path) : Record where
  operation := "build_complete"
  stage := some "cleanup"
  message := "Build finished."
  extra := some [("artifacts", .arr (artifacts.map fun path => .str path.toString))]

/-- The record that ends a build with a problem. -/
def failedRecord (report : Report) : Record where
  level := "error"
  operation := "build_failed"
  stage := report.context.get? "stage"
  message := report.text
  extra := some [("code", .str report.code.text)]

/-- The record about an object that is linked but not registered. -/
def passThroughRecord (input : Path) : Record where
  operation := "pass_through"
  input := some input.toString
  stage := some "symbols"
  message := "No entry point found; linking as pass-through input."

end Request

/-- The entry points of ready-made objects, as far as they have any. -/
abbrev Prebuilt := List (Path × Option EntryPoint)

namespace Builder

/-- Looks into the ready-made objects among the inputs, each one once. -/
def scanPrebuilt (b : Builder) (r : Request) (layout : Toolchain) (tools : ToolPaths) :
    List Path → Prebuilt → Build Prebuilt
  | [], found => return found
  | input :: later, found => do
    if input.extension ≠ layout.objectExtension ∨ found.any (·.1 == input) then
      b.scanPrebuilt r layout tools later found
    else
      let entryPoint ← b.host.scanEntryPoint tools.nm input
      if entryPoint.isNone then
        if r.kind = .executable ∧ r.inputs.head? = some input then
          Build.complain (.noEntryPointListed input)
        Build.log (Request.passThroughRecord input)
      b.scanPrebuilt r layout tools later (found ++ [(input, entryPoint)])

/-- Compiles the sources among the inputs and answers what is linked, in the order of
    the inputs. -/
def linkInputs (b : Builder) (layout : Toolchain) (compiler : Compiler) (prebuilt : Prebuilt) :
    List Path → Build (List LinkInput)
  | [] => return []
  | input :: later => do
    let linkInput ←
      if input.extension = layout.sourceExtension then do
        let object ← Build.allocate b.host input.stem layout.objectExtension
        LinkInput.ofUnit <$> compiler.compile input (some object)
      else
        pure (LinkInput.of input (prebuilt.lookup input).join "")
    return linkInput :: (← b.linkInputs layout compiler prebuilt later)

/-- Compiles every input into an object. -/
def buildObjects (compiler : Compiler) (output : Option Path) : List Path → Build (List Path)
  | [] => return []
  | input :: later => do
    let unit ← compiler.compile input output
    return unit.path :: (← buildObjects compiler output later)

/-- Compiles every input into a bundle. -/
def buildBundles (layout : Toolchain) (compiler : Compiler) (linker : Linker)
    (output : Option Path) : List Path → Build (List Path)
  | [] => return []
  | input :: later => do
    let object ← Build.allocate compiler.host input.stem layout.objectExtension
    let unit ← compiler.compile input (some object)
    let output' ← match output with
      | some output => pure output
      | none => Build.ofFallible (input.withExtension layout.bundleExtension)
    let artifact ← linker.bundle unit output'
    return artifact :: (← buildBundles layout compiler linker output later)

/-- Builds a validated request and answers its artifacts. -/
def buildArtifacts (b : Builder) (r : Request) (layout : Toolchain) (tools : ToolPaths) :
    Build (List Path) := do
  let prebuilt ← if r.kind.isPerInput then pure [] else b.scanPrebuilt r layout tools r.inputs []
  let hasSources := r.inputs.any fun input => input.extension == layout.sourceExtension
  let exceptionFlags ← if hasSources then b.host.probeExceptionFlags tools.backend else pure []
  let bridgingFlags ← if r.static then layout.bridgingFlags r.frameworks else pure []
  let compiler : Compiler := {
    host := b.host
    tools
    archs := r.archs
    objectExtension := layout.objectExtension
    bridgingFlags
    exceptionFlags
    jobs := r.jobs }
  let linker : Linker := { host := b.host, tools, toolchain := layout, archs := r.archs }
  match r.kind with
  | .object => buildObjects compiler r.output r.inputs
  | .bundle => buildBundles layout compiler linker r.output r.inputs
  | .dylib =>
    let inputs ← b.linkInputs layout compiler prebuilt r.inputs
    return [← linker.dylib inputs r.output r.linkerFlags]
  | .executable =>
    let inputs ← b.linkInputs layout compiler prebuilt r.inputs
    let output ← match r.output, r.inputs with
      | some output, _ => pure output
      | none, first :: _ => Build.ofFallible (first.withExtension "")
      | none, [] => Build.complain .noInputs
    return [← linker.executable inputs output r.static r.frameworks
      (withoutDylibOptions r.linkerFlags)]

/-- Adds a record of the problem that stops a build. -/
def noteFailure (act : Build α) : Build α :=
  tryCatch act fun failure => do
    if let .problem p := failure then Build.log (Request.failedRecord p.report)
    throw failure

/-- Builds a request. -/
def run (b : Builder) (r : Request) : Build BuildResult := do
  let layout ← b.toolchain.validate r
  let tools ← b.locator.locate b.toolchain
  Build.log r.startRecord
  Build.openScratch b.scratchParent "aotc-"
  let artifacts ← Build.ensuring (noteFailure (b.buildArtifacts r layout tools)) Build.cleanUp
  Build.log (Request.completeRecord artifacts)
  return ⟨artifacts, (← get).log⟩

end Builder

end AheadOfTime
