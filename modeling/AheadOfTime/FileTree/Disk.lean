import AheadOfTime.FileTree.Basic

/-! # Operations on files

    The operations that change a file tree, each with the faults the system gives for it.
    An operation that fails half-way leaves what it has done so far: `makeDirectories` may
    have made some parents before it is refused.

    A file tree can be written as a list of lines, one for every file.  A line that ends
    with a slash names a directory and one that ends with a star an executable file; the
    text of the files is left open. -/

namespace AheadOfTime

/-- A computation that changes a file tree and may be refused. -/
abbrev Disk := ExceptT Fault (StateM FileTree)

namespace Disk

/-- A system call on `p`, written `given`: a path with a NUL is not even looked at, and
    a refusal names the path as it was given. -/
def call (p : Path) (given : String) (act : FileTree → Except Refusal (α × FileTree)) :
    Disk α := do
  if FileTree.holdsNul p then throw .nullByte
  match act (← get) with
  | .ok (a, t) => set t; return a
  | .error reason => throw (.refused reason given)

/-- Makes a directory at a free path whose parent exists; `given` is the path in messages. -/
def makeDirectoryAs (p : Path) (given : String) : Disk Unit :=
  call p given fun t => do
    let l ← t.locate .entry p
    match t.entryAt? l with
    | some _ => .error .alreadyExists
    | none => .ok ((), t.put l .directory)

/-- Makes a directory at a free path whose parent exists. -/
def makeDirectory (p : Path) : Disk Unit := makeDirectoryAs p p.toString

/-- Accepts a refusal to make a directory where there is one already. -/
def unlessDirectory (p : Path) (fault : Fault) : Disk Unit := do
  match (← get).isDirectory? p with
  | .ok true => return ()
  | .ok false => throw fault
  | .error other => throw other

/-- Makes a directory unless there is one, with its parents as needed.  The names come
    last first. -/
def makeDirectoriesRev (anchor : Anchor) : List String → Disk Unit
  | [] => makeOne ⟨anchor, []⟩
  | name :: above =>
    let p : Path := ⟨anchor, (name :: above).reverse⟩
    tryCatch (makeDirectory p) fun
      | .refused .noEntry _ => do
        makeDirectoriesRev anchor above
        makeOne p
      | .nullByte => throw .nullByte
      | fault => unlessDirectory p fault
where
  /-- Makes one directory, whose parent has to be there, unless there is one. -/
  makeOne (p : Path) : Disk Unit :=
    tryCatch (makeDirectory p) fun
      | .refused .noEntry path => throw (.refused .noEntry path)
      | .nullByte => throw .nullByte
      | fault => unlessDirectory p fault

/-- Makes a directory unless there is one, with its parents as needed. -/
def makeDirectories (p : Path) : Disk Unit := makeDirectoriesRev p.anchor p.parts.reverse

/-- Writes a text file, over what the file held before; a file that is already there
    stays executable if it was. -/
def writeText (p : Path) (text : String) : Disk Unit :=
  call p p.toString fun t => do
    let l ← t.locate .creation p
    match t.entryAt? l with
    | some .directory => .error .isDirectory
    | some (.file _ executable) => .ok ((), t.put l (.ofText text executable))
    | some (.link _) => .error .linkLoop
    | none => .ok ((), t.put l (.ofText text false))

/-- Makes a file executable. -/
def makeExecutable (p : Path) : Disk Unit :=
  call p p.toString fun t => do
    let l ← t.locate .target p
    match t.entryAt? l with
    | some (.file bytes _) => .ok ((), t.put l (.file bytes true))
    | some _ => .ok ((), t)
    | none => .error .noEntry

/-- Makes a symbolic link at a free path. -/
def makeLink (p : Path) (target : String) : Disk Unit :=
  call p p.toString fun t => do
    let l ← t.locate .entry p
    match t.entryAt? l with
    | some _ => .error .alreadyExists
    | none => .ok ((), t.put l (.link target))

/-- Reads a text file. -/
def readText (p : Path) : Disk String :=
  call p p.toString fun t => do
    match ← t.status p with
    | .file bytes _ => .ok (String.ofList (Text.decodeUtf8 bytes), t)
    | _ => .error .isDirectory

/-- Removes a file or a link. -/
def removeEntry (p : Path) : Disk Unit :=
  call p p.toString fun t => do
    let l ← t.locate .entry p
    match t.entryAt? l with
    | none => .error .noEntry
    | some .directory => .error .isDirectory
    | some _ => .ok ((), t.remove l)

/-- Removes a file or a link, if there is one. -/
def removeIfPresent (p : Path) : Disk Unit :=
  tryCatch (removeEntry p) fun
    | .refused .noEntry _ => return ()
    | fault => throw fault

/-- Removes a directory with all that is in it; whatever else is at the path stays. -/
def removeTree (p : Path) : Disk Unit := do
  let t ← get
  if FileTree.holdsNul p then return ()
  match t.locate .entry p with
  | .ok l => if t.entryAt? l = some .directory then set (t.removeBelow l)
  | .error _ => return ()

end Disk

namespace FileTree

/-- Puts into the tree what a line names, with the directories above it. -/
def addLine (line : List Char) : Disk Unit := do
  match line.reverse with
  | [] => return ()
  | '/' :: _ => Disk.makeDirectories (.ofString (String.ofList line))
  | '*' :: name =>
    let p := Path.ofString (String.ofList name.reverse)
    Disk.makeDirectories p.parent
    Disk.writeText p ""
    Disk.makeExecutable p
  | _ =>
    let p := Path.ofString (String.ofList line)
    Disk.makeDirectories p.parent
    Disk.writeText p ""

/-- Puts into the tree what the lines name, except for lines that do not fit those before. -/
def addLines : List (List Char) → FileTree → FileTree
  | [], t => t
  | line :: later, t => addLines later ((addLine line).run t).2

end FileTree

end AheadOfTime
