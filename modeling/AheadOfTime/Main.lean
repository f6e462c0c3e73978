import AheadOfTime.CommandLine.Run
import AheadOfTime.FileTree.Disk
import AheadOfTime.Rehearsal
import AheadOfTime.Text.Split

/-! # The program

    A rehearsal of a command line: standard input lists the files there are, one on a
    line, and the tools only leave their marks.  With `--verbose` the program so prints
    every command of the build; it complains, and ends, as the build itself would. -/

namespace AheadOfTime.CommandLine

/-- The environment variables that a build depends on. -/
def variableNames : List String :=
  "PATH" :: "AOTC_PREFIX" :: ToolRole.all.map ToolRole.variableName

/-- The world in which a directory holds what the lines of a listing name. -/
def listedWorld (directory : String) (listing : List Char) : World where
  files :=
    let here : FileTree := ⟨(Path.ofString directory).parts, []⟩
    let prepared := ((Disk.makeDirectories (.ofString directory)).run here).2
    FileTree.addLines (Text.lines listing) prepared
  temporary := .ofString "/tmp"

/-- What is printed about the end of the program, and its exit status. -/
def Ending.report : Ending → String × UInt32
  | .status code => ("", code.toUInt32)
  | .fault f => (f.message ++ "\n", 1)

/-- Reads all of a stream. -/
partial def readAll (stream : IO.FS.Stream) (before : String) : IO String := do
  let line ← stream.getLine
  if line.isEmpty then return before else readAll stream (before ++ line)

end AheadOfTime.CommandLine

open AheadOfTime AheadOfTime.CommandLine

/-- Rehearses the command line. -/
def main (arguments : List String) : IO UInt32 := do
  let mut environment : Environment := []
  for name in variableNames do
    if let some value ← IO.getEnv name then
      environment := environment ++ [(name, value)]
  let directory := (← IO.getEnv "PWD").getD "/"
  let machine := (← IO.getEnv "HOSTTYPE").getD "x86_64"
  let listing ← readAll (← IO.getStdin) ""
  let host : Host := { tools := ({} : Rehearsal).toolset }
  let world := listedWorld directory listing.toList
  let outcome := (run host environment machine arguments).run world |>.1
  let (message, status) := outcome.ending.report
  IO.print outcome.stdout
  IO.eprint (outcome.stderr ++ message)
  return status
