import AheadOfTime.Glue.Render
import AheadOfTime.Scratch
import AheadOfTime.Tool.Run
import AheadOfTime.Toolchain.Locate

/-! # Linking

    Bundles, dynamic libraries and executables are made in the same three steps: the
    glue is compiled, the output is linked from the glue and the inputs, and the output
    is stripped.  An output that could not be stripped is removed. -/

namespace AheadOfTime

/-- What linking needs to know. -/
structure Linker where
  host : Host
  tools : ToolPaths
  toolchain : Toolchain
  archs : List Arch

namespace Linker

/-- The options that name the architectures. -/
def archFlags (k : Linker) : List String := k.archs.flatMap fun arch => ["-arch", arch.name]

/-- The options that name the SDK. -/
def sysrootFlags (k : Linker) : List String :=
  match k.toolchain.sdk with
  | none => []
  | some sdk => ["-isysroot", sdk.toString]

/-- The options that link the runtime. -/
def runtimeFlags (k : Linker) : List String :=
  ["-L" ++ k.toolchain.libDir.toString, "-l" ++ k.toolchain.runtimeLibrary]

/-- The libraries of the runtime in an executable. -/
def runtimeLibraries (k : Linker) (static : Bool) : List String :=
  if static then k.toolchain.staticLibraryPath.toString :: k.toolchain.staticDependencies
  else k.runtimeFlags

/-- The call that compiles glue. -/
def glueCall (k : Linker) (name : String) (source object : Path) : Call where
  stage := .glue
  argv := [k.tools.cc.toString, "-fexceptions", "-c", "-x", "c++"] ++ k.archFlags
    ++ k.sysrootFlags ++ [source.toString, "-o", object.toString]
  input := some name

/-- The call that links. -/
def linkCall (k : Linker) (output : Path) (objects : List Path)
    (modeFlags libraries extraFlags : List String) : Call where
  stage := .link
  argv := [k.tools.cc.toString, "-o", output.toString] ++ k.archFlags ++ k.sysrootFlags
    ++ modeFlags ++ objects.map Path.toString ++ libraries ++ extraFlags
  input := some output.name

/-- The call that strips. -/
def stripCall (k : Linker) (output : Path) (flags : List String) : Call where
  stage := .strip
  argv := [k.tools.strip.toString] ++ flags ++ [output.toString]
  input := some output.name

/-- Compiles glue and answers its object. -/
def compileGlue (k : Linker) (text name : String) : Build Path := do
  let source ← Build.allocate k.host (name ++ "-glue") ".cpp"
  Build.onDisk (Disk.writeText source text)
  let object ← Build.allocate k.host (name ++ "-glue") ".o"
  let _ ← k.host.run (k.glueCall name source object)
  return object

/-- Links an output. -/
def link (k : Linker) (output : Path) (objects : List Path)
    (modeFlags libraries extraFlags : List String) : Build Unit := do
  Build.onDisk (Disk.makeDirectories output.parent)
  let _ ← k.host.run (k.linkCall output objects modeFlags libraries extraFlags)

/-- Strips an output, and removes it if the tool reports a failure. -/
def strip (k : Linker) (output : Path) (flags : List String) : Build Path :=
  tryCatch (do
    let _ ← k.host.run (k.stripCall output flags)
    return output) fun
    | .problem (.toolFailed tool stage input arch exit) => do
      Build.onDisk (Disk.removeIfPresent output)
      Build.complain (.toolFailed tool stage input arch exit)
    | failure => throw failure

/-- Makes a bundle from one unit. -/
def bundle (k : Linker) (unit : CompiledUnit) (output : Path) : Build Path := do
  let glue ← Build.ofChecked (Glue.ofBundle (.ofUnit unit))
  let glueObject ← k.compileGlue glue unit.source.stem
  k.link output [glueObject, unit.path] ["-bundle"] k.runtimeFlags []
  k.strip output ["-x"]

/-- Makes a dynamic library.  Inputs without an entry point are linked but not registered. -/
def dylib (k : Linker) (inputs : List LinkInput) (output : Option Path)
    (linkerFlags : List String) : Build Path := do
  let some output := output | Build.complain .outputRequired
  let glueObject ← k.compileGlue (Glue.ofDylib inputs) output.stem
  k.link output (glueObject :: inputs.map LinkInput.path) ["-dynamiclib"] k.runtimeFlags linkerFlags
  k.strip output ["-x"]

/-- Makes an executable that runs the first input. -/
def executable (k : Linker) (inputs : List LinkInput) (output : Path) (static : Bool)
    (frameworks linkerFlags : List String) : Build Path := do
  let glue ← Build.ofChecked (Glue.ofExecutable inputs)
  let glueObject ← k.compileGlue glue output.name
  k.link output (glueObject :: inputs.map LinkInput.path) []
    (k.runtimeLibraries static ++ frameworks.flatMap (["-framework", ·]) ++ ["-lstdc++"])
    linkerFlags
  k.strip output []

end Linker

end AheadOfTime
