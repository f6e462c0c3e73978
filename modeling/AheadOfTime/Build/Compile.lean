import AheadOfTime.EntryPoint.Draw
import AheadOfTime.LinkInput
import AheadOfTime.Scratch
import AheadOfTime.Tool.Run
import AheadOfTime.Toolchain.Locate

/-! # Compiling sources

    A source goes through three tools for every architecture: the front end makes
    bitcode and gives the module its entry point, the back end makes assembly, the C
    compiler makes an object.  The objects are then merged into one that serves all
    architectures.

    With several workers the architectures are compiled side by side, so their calls get
    between each other and go on behind a failure of one of them; else they are taken
    one after the other.  Either way the objects are merged in the order of the
    architectures. -/

namespace AheadOfTime

/-- What the compilation of a source needs to know. -/
structure Compiler where
  host : Host
  tools : ToolPaths
  archs : List Arch
  objectExtension : String := ".o"
  bridgingFlags : List String := []
  exceptionFlags : List String := []
  jobs : Nat := 1

/-- Merges objects, one for every architecture, into one file. -/
def Host.mergeObjects (host : Host) (lipo : Path) (objects : List Path) (output : Path)
    (input : Option String) : Build Path := do
  if objects = [] then Build.complain (.nothingToMerge output)
  Build.onDisk (Disk.makeDirectories output.parent)
  let _ ← host.run {
    stage := .merge
    argv := [lipo.toString, "-create"] ++ objects.map Path.toString ++ ["-output", output.toString]
    input }
  return output

namespace Compiler

/-- The call of the front end. -/
def frontendCall (c : Compiler) (source : Path) (arch : Arch) (entryPoint : EntryPoint)
    (bitcode : Path) : Call where
  stage := .frontend
  argv := [c.tools.frontend.toString] ++ c.bridgingFlags
    ++ ["--emit-llvm", bitcode.toString, entryPoint.symbol, source.toString]
  input := some source.toString
  arch := some arch.name

/-- The call of the back end. -/
def backendCall (c : Compiler) (source : Path) (arch : Arch) (bitcode assembly : Path) : Call where
  stage := .backend
  argv := [c.tools.backend.toString, "-f", bitcode.toString, "-o=" ++ assembly.toString,
    "-march=" ++ arch.backendName, "-relocation-model=pic"] ++ c.exceptionFlags
  input := some source.toString
  arch := some arch.name

/-- The call of the C compiler as an assembler. -/
def assembleCall (c : Compiler) (source : Path) (arch : Arch) (assembly object : Path) : Call where
  stage := .assemble
  argv := [c.tools.cc.toString, "-fexceptions", "-c", "-arch", arch.name, assembly.toString,
    "-o", object.toString]
  input := some source.toString
  arch := some arch.name

/-- Compiles a source for one architecture and answers the object. -/
def compileFor (c : Compiler) (source : Path) (entryPoint : EntryPoint) (arch : Arch) :
    Strand Path := do
  let stem := source.stem ++ "-" ++ arch.name
  let bitcode ← Strand.one (Build.allocate c.host stem ".bc")
  let assembly ← Strand.one (Build.allocate c.host stem ".s")
  let object ← Strand.one (Build.allocate c.host stem ".o")
  let _ ← c.host.strand (c.frontendCall source arch entryPoint bitcode)
  let _ ← c.host.strand (c.backendCall source arch bitcode assembly)
  let _ ← c.host.strand (c.assembleCall source arch assembly object)
  return object

/-- Whether the architectures are compiled side by side. -/
def isPooled (c : Compiler) : Bool := c.jobs > 1 && c.archs.length > 1

/-- The objects of a source, one for each architecture. -/
def compileAll (c : Compiler) (source : Path) (entryPoint : EntryPoint) : Build (List Path) := do
  let strands := c.archs.map (c.compileFor source entryPoint)
  if c.isPooled then
    let workers := min c.jobs c.archs.length
    modify fun w => { w with pools := w.pools ++ [workers] }
    Strand.sideBySide workers (c.host.turns (← get)) strands
  else
    Strand.inOrder strands

/-- The object of a source that is not given a place of its own. -/
def defaultOutput (c : Compiler) (source : Path) : Except Fault Path :=
  source.withExtension c.objectExtension

/-- Compiles a source for every architecture into one object. -/
def compile (c : Compiler) (source : Path) (output : Option Path) : Build CompiledUnit := do
  let entryPoint ← EntryPoint.generate
  let destination ← match output with
    | some output => pure output
    | none => Build.ofFallible (c.defaultOutput source)
  let objects ← c.compileAll source entryPoint
  let _ ← c.host.mergeObjects c.tools.lipo objects destination (some source.toString)
  return ⟨source, destination, entryPoint⟩

end Compiler

end AheadOfTime
