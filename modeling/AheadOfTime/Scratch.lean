import AheadOfTime.Text.Digits
import AheadOfTime.Text.CharSet
import AheadOfTime.World

/-! # Scratch files

    A build keeps its intermediate files in one scratch directory of its own.  The
    directory is made when the first file is asked for, so a build that is refused
    before leaves no trace.  Names are made from a stem of the caller's and a fresh
    identifier, so they never collide.  Cleaning up removes what was handed out and the
    directory, and closes the session for good. -/

namespace AheadOfTime

namespace Scratch

/-- A stem without the characters that could lead out of the directory or need quoting:
    whatever is no word character, dot or hyphen becomes `_`.  A stem is never empty. -/
def safeStem (stem : String) : String :=
  let safe := stem.toList.map fun c => if Text.isWord c ∨ c = '.' ∨ c = '-' then c else '_'
  if safe = [] then "scratch" else String.ofList safe

/-- The name of a scratch file. -/
def fileName (stem id extension : String) : String := safeStem stem ++ "-" ++ id ++ extension

/-- The path of a new scratch directory, as it is written.  A label that starts with a
    slash leads there by itself. -/
def directoryText (parent : Path) (label : String) (number : Nat) : String :=
  let name := label ++ Text.hex 8 number
  let start := parent.toString
  if name.toList.head? = some '/' then name
  else if start.toList.getLast? = some '/' then start ++ name
  else start ++ "/" ++ name

end Scratch

namespace Build

/-- Starts a new scratch session. -/
def openScratch (parent : Option Path) (label : String) : Build Unit :=
  modify fun w => { w with scratch := { label, parent } }

/-- The directory of the scratch session, made if there is none. -/
def scratchDirectory : Build Path := do
  let w ← get
  match w.scratch.directory with
  | some directory => return directory
  | none =>
    set { w with scratchDirectories := w.scratchDirectories + 1 }
    let text := Scratch.directoryText (w.scratch.parent.getD w.temporary) w.scratch.label
      (w.scratchDirectories + 1)
    let directory := Path.ofString text
    onDisk (Disk.makeDirectoryAs directory text)
    modify fun w => { w with scratch := { w.scratch with directory := some directory } }
    return directory

/-- A path for a new scratch file.  The file itself is not made. -/
def allocate (host : Host) (stem extension : String) : Build Path := do
  if (← get).scratch.isClosed then complain (.scratchClosed stem)
  let directory ← scratchDirectory
  let w ← get
  let path := directory.child
    (Scratch.fileName stem (host.scratchId (w.scratchIds + 1)) extension)
  set { w with
    scratchIds := w.scratchIds + 1
    scratch := { w.scratch with files := w.scratch.files ++ [path] } }
  return path

/-- Removes the scratch files and then the scratch directory with whatever else is in
    it, and closes the session.  A file that cannot be removed stops the cleaning. -/
def cleanUp : Build Unit := do
  let w ← get
  set { w with scratch := { w.scratch with directory := none, files := [], isClosed := true } }
  w.scratch.files.forM fun path => onDisk (Disk.removeIfPresent path)
  match w.scratch.directory with
  | some directory => onDisk (Disk.removeTree directory)
  | none => return ()

end Build

end AheadOfTime
