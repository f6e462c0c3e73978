import AheadOfTime.Fault
import AheadOfTime.Text.Utf8

/-! # File trees

    A file tree holds directories, files and symbolic links at locations: lists of names
    from the root that contain neither links nor dots.  A path is given meaning by
    walking it from the root or the working directory, following links on the way.  The
    walk answers the location that a path leads to, which may be free, or the reason why
    it leads nowhere. -/

namespace AheadOfTime

/-- A place in the tree, as the names that lead to it from the root. -/
abbrev Location := List String

/-- What may stand at a location. -/
inductive Entry where
  | directory
  | file (bytes : List UInt8) (executable : Bool)
  | link (target : String)
  deriving DecidableEq, Repr

/-- A file that holds a text. -/
def Entry.ofText (text : String) (executable : Bool) : Entry :=
  .file (Text.utf8Bytes text.toList) executable

/-- Entries at their locations, and the working directory. -/
structure FileTree where
  workingDirectory : Location
  entries : List (Location × Entry)

/-- What the last name of a path means. -/
inductive Aim where
  /-- The name itself, which may be free. -/
  | entry
  /-- What the name leads to; a link counts itself, unless a slash follows it. -/
  | itself
  /-- What the name leads to in the end. -/
  | target
  /-- The same, where a file may be made; so no slash may follow. -/
  | creation
  deriving DecidableEq, Repr

namespace FileTree

/-- What stands at a location; the root is always a directory. -/
def entryAt? (t : FileTree) (l : Location) : Option Entry :=
  if l = [] then some .directory else t.entries.lookup l

/-- The tree with `e` at `l`. -/
def put (t : FileTree) (l : Location) (e : Entry) : FileTree :=
  { t with entries := (l, e) :: t.entries.filter fun entry => entry.1 ≠ l }

/-- The tree without the entry at `l`. -/
def remove (t : FileTree) (l : Location) : FileTree :=
  { t with entries := t.entries.filter fun entry => entry.1 ≠ l }

/-- The tree without the entry at `l` and all that lies below it. -/
def removeBelow (t : FileTree) (l : Location) : FileTree :=
  { t with entries := t.entries.filter fun entry => !l.isPrefixOf entry.1 }

theorem entryAt?_put (t : FileTree) {l : Location} (h : l ≠ []) (e : Entry) :
    (t.put l e).entryAt? l = some e := by
  simp [entryAt?, put, h]

/-- The most bytes a name may have. -/
def nameLimit : Nat := 255

/-- The most bytes a path may have. -/
def pathLimit : Nat := 4095

/-- The most links that are followed for one path. -/
def linkLimit : Nat := 40

/-- Walks along names from a directory.  A link on the way, and one at the end if that
    is not what is aimed at, is handed to `follow` with the directory it stands in, its
    target and the names still to come. -/
def walkNames (t : FileTree) (aim : Aim)
    (follow : Location → String → List String → Except Refusal Location) :
    Location → List String → Except Refusal Location
  | here, [] => .ok here
  | here, name :: rest =>
    if name = "" ∨ name = "." then walkNames t aim follow here rest
    else if name = ".." then walkNames t aim follow here.dropLast rest
    else if name.utf8ByteSize > nameLimit then .error .nameTooLong
    else if aim = .creation ∧ rest ≠ [] ∧ rest.all (· = "") then .error .isDirectory
    else match t.entryAt? (here ++ [name]) with
      | some .directory => walkNames t aim follow (here ++ [name]) rest
      | some (.file _ _) => if rest = [] then .ok (here ++ [name]) else .error .notDirectory
      | some (.link target) =>
        if rest = [] ∧ (aim = .entry ∨ aim = .itself) then .ok (here ++ [name])
        else follow here target rest
      | none => if rest = [] then .ok (here ++ [name]) else .error .noEntry

/-- Walks along names from a directory and follows at most the given number of links. -/
def walk (t : FileTree) (aim : Aim) :
    Nat → Location → List String → Except Refusal Location
  | 0 => walkNames t aim fun _ _ _ => .error .linkLoop
  | links + 1 => walkNames t aim fun here target rest =>
    walk t aim links (if target.toList.head? = some '/' then [] else here)
      (Text.pieces '/' target ++ rest)

/-- The directory a path starts from. -/
def start (t : FileTree) (p : Path) : Location :=
  if p.anchor = .relative then t.workingDirectory else []

/-- The location a path leads to. -/
def locate (t : FileTree) (aim : Aim) (p : Path) : Except Refusal Location :=
  if p.toString.utf8ByteSize > pathLimit then .error .nameTooLong
  else walk t aim linkLimit (t.start p) p.parts

/-- Whether a path holds a NUL, so that no system call can take it. -/
def holdsNul (p : Path) : Bool := p.parts.any fun part => part.toList.contains '\x00'

/-- The entry a path leads to, links followed. -/
def status (t : FileTree) (p : Path) : Except Refusal Entry := do
  match t.entryAt? (← t.locate .target p) with
  | some entry => .ok entry
  | none => .error .noEntry

/-- The entry a path leads to, if there is one.  A name or a path that is too long is a
    fault; any other reason why the path leads nowhere means that nothing is there. -/
def lookAt (t : FileTree) (p : Path) : Except Fault (Option Entry) :=
  if holdsNul p then .ok none
  else match t.status p with
    | .ok entry => .ok (some entry)
    | .error .nameTooLong => .error (.refused .nameTooLong p.toString)
    | .error _ => .ok none

/-- Whether something is at the path. -/
def exists? (t : FileTree) (p : Path) : Except Fault Bool :=
  return (← t.lookAt p).isSome

/-- Whether a directory is at the path. -/
def isDirectory? (t : FileTree) (p : Path) : Except Fault Bool :=
  return (← t.lookAt p) == some .directory

/-- Whether the entry is a regular file. -/
def isRegular : Entry → Bool
  | .file _ _ => true
  | _ => false

/-- Whether the entry is a regular file that may be executed. -/
def isProgram : Entry → Bool
  | .file _ executable => executable
  | _ => false

/-- Whether a regular file is at the path. -/
def isFile? (t : FileTree) (p : Path) : Except Fault Bool :=
  return (← t.lookAt p).any isRegular

/-- Whether an executable file is at the path. -/
def isProgram? (t : FileTree) (p : Path) : Except Fault Bool :=
  return (← t.lookAt p).any isProgram

/-- Whether an executable file is at the path; a path that leads nowhere, for whatever
    reason, holds none. -/
def holdsProgram (t : FileTree) (p : Path) : Bool :=
  match t.lookAt p with
  | .ok (some entry) => isProgram entry
  | _ => false

/-- The location below the working directory, if `l` lies there. -/
def relative? (t : FileTree) (l : Location) : Option Location :=
  if t.workingDirectory.isPrefixOf l ∧ l ≠ t.workingDirectory then
    some (l.drop t.workingDirectory.length)
  else none

/-- Everything below the working directory, ordered by path. -/
def listing (t : FileTree) : List (String × Entry) :=
  (t.entries.filterMap fun (l, e) =>
    (t.relative? l).map fun below => (String.intercalate "/" below, e)).mergeSort
      fun a b => decide (a.1 ≤ b.1)

end FileTree

end AheadOfTime
