import AheadOfTime.FileTree.Basic
import AheadOfTime.System.Process
import AheadOfTime.Text.Split

/-! # Volumes

    A volume keeps files under numbers, so that one file can have several names and
    outlives them as long as it is open.  A directory knows the directory above it and
    the names it holds, in the order in which they were made.  A path is given meaning
    by walking along its names. -/

namespace AheadOfTime

/-- A device. -/
inductive Device where
  | null
  | zero
  | full
  /-- Whatever that descriptor of the process leads to. -/
  | descriptor (number : Nat)
  deriving DecidableEq, Repr

/-- What a file holds. -/
inductive Content where
  | regular (bytes : ByteArray)
  | directory (above : Nat) (entries : List (Octets × Nat))
  | link (target : Octets)
  | device (device : Device)

/-- A file: what it holds, its permissions, the number of its names, and when it was changed. -/
structure Inode where
  content : Content
  mode : Nat
  links : Nat := 1
  time : Nat := 0

instance : Inhabited Inode := ⟨⟨.link "", 0, 0, 0⟩⟩

/-- The kind of a file with that content. -/
def Content.kind : Content → FileKind
  | regular _ => .regular
  | directory _ _ => .directory
  | link _ => .link
  | device _ => .device

/-- Files under their numbers; the first one is the root directory. -/
structure Volume where
  inodes : Array Inode

/-- Where a path leads: the directory and the name in it, empty for a directory that was
    not reached by its name, what is there, and whether a slash follows. -/
structure Place where
  directory : Nat
  name : Octets
  inode? : Option Nat
  hasSlash : Bool
  deriving DecidableEq, Repr

namespace Volume

/-- The number of the root directory. -/
def root : Nat := 0

/-- The file with a number. -/
def inode (v : Volume) (n : Nat) : Inode := v.inodes[n]?.getD default

/-- The volume with a file changed. -/
def change (v : Volume) (n : Nat) (f : Inode → Inode) : Volume := ⟨v.inodes.modify n f⟩

/-- The volume with a new file, and its number. -/
def add (v : Volume) (file : Inode) : Volume × Nat := (⟨v.inodes.push file⟩, v.inodes.size)

/-- Whether the file is a directory. -/
def isDirectory (v : Volume) (n : Nat) : Bool := (v.inode n).content.kind == .directory

/-- The names in a directory. -/
def entries (v : Volume) (n : Nat) : List (Octets × Nat) :=
  match (v.inode n).content with
  | .directory _ entries => entries
  | _ => []

/-- The directory above a directory. -/
def above (v : Volume) (n : Nat) : Nat :=
  match (v.inode n).content with
  | .directory above _ => above
  | _ => root

/-- Whether a path starts at the root. -/
def isAbsolute (path : Octets) : Bool := path.toList.head? == some '/'

/-- Walks along names from a directory; a link that is followed is handed to `follow`
    with the directory it stands in, its target and the names still to come. -/
def walkNames (v : Volume) (aim : Aim)
    (follow : Nat → Octets → List Octets → Except Refusal Place) :
    Nat → List Octets → Except Refusal Place
  | here, [] => .ok ⟨here, "", some here, true⟩
  | here, name :: rest =>
    if name = "" ∨ name = "." then walkNames v aim follow here rest
    else if name = ".." then walkNames v aim follow (v.above here) rest
    else if name.length > FileTree.nameLimit then .error .nameTooLong
    else
      let isLast := rest.all (· = "")
      let hasSlash := isLast && !rest.isEmpty
      if hasSlash ∧ aim = .creation then .error .isDirectory
      else match (v.entries here).lookup name with
      | none => if isLast then .ok ⟨here, name, none, hasSlash⟩ else .error .noEntry
      | some n => match (v.inode n).content with
        | .directory _ _ =>
          if isLast then .ok ⟨here, name, some n, hasSlash⟩ else walkNames v aim follow n rest
        | .link target =>
          if isLast && (aim = .entry || aim = .itself && !hasSlash) then
            .ok ⟨here, name, some n, hasSlash⟩
          else follow here target rest
        | _ =>
          if isLast && (aim = .entry || !hasSlash) then .ok ⟨here, name, some n, hasSlash⟩
          else .error .notDirectory

/-- Walks along names from a directory and follows at most the given number of links. -/
def walk (v : Volume) (aim : Aim) : Nat → Nat → List Octets → Except Refusal Place
  | 0 => walkNames v aim fun _ _ _ => .error .linkLoop
  | links + 1 => walkNames v aim fun here target rest =>
    walk v aim links (if isAbsolute target then root else here) (Text.pieces '/' target ++ rest)

/-- Where a path leads that is seen from a directory. -/
def place (v : Volume) (here : Nat) (aim : Aim) (path : Octets) : Except Refusal Place :=
  if path = "" then .error .noEntry
  else if path.length > FileTree.pathLimit then .error .nameTooLong
  else walk v aim FileTree.linkLimit (if isAbsolute path then root else here) (Text.pieces '/' path)

/-- The file a path leads to. -/
def find (v : Volume) (here : Nat) (aim : Aim) (path : Octets) : Except Refusal Nat := do
  match (← v.place here aim path).inode? with
  | some n => return n
  | none => throw .noEntry

/-- The directory a path leads to. -/
def findDirectory (v : Volume) (here : Nat) (path : Octets) : Except Refusal Nat := do
  let n ← v.find here .target path
  if v.isDirectory n then return n else throw .notDirectory

/-- What is told about a file. -/
def statusOf (v : Volume) (n : Nat) : FileStatus :=
  let file := v.inode n
  let (size, links) := match file.content with
    | .regular bytes => (bytes.size, file.links)
    | .directory _ entries =>
      (4096, if file.links = 0 then 0 else 2 + entries.countP fun entry => v.isDirectory entry.2)
    | .link target => (target.length, file.links)
    | _ => (0, file.links)
  ⟨n, file.content.kind, file.mode, size, links, file.time⟩

/-- The directory with a name put in or taken out. -/
def setEntries (v : Volume) (directory : Nat) (now : Nat)
    (f : List (Octets × Nat) → List (Octets × Nat)) : Volume :=
  v.change directory fun file => match file.content with
    | .directory above entries => { file with content := .directory above (f entries), time := now }
    | _ => file

/-- Gives a file a name. -/
def link (v : Volume) (now directory : Nat) (name : Octets) (n : Nat) : Volume :=
  v.setEntries directory now (· ++ [(name, n)])

/-- Takes a name away. -/
def unlink (v : Volume) (now directory : Nat) (name : Octets) : Volume :=
  v.setEntries directory now fun entries => entries.filter fun entry => entry.1 ≠ name

/-- Makes a file at a place that is free. -/
def create (v : Volume) (now : Nat) (place : Place) (content : Content) (mode : Nat) :
    Volume × Nat :=
  let (v, n) := v.add { content, mode, time := now }
  (v.link now place.directory place.name n, n)

/-- The place of a name that is free; a slash may follow only if a directory is made. -/
def freePlace (v : Volume) (here : Nat) (path : Octets) (forDirectory : Bool) :
    Except Refusal Place := do
  let place ← v.place here .entry path
  if place.inode?.isSome then throw .alreadyExists
  if place.hasSlash && !forDirectory then throw .noEntry
  if (v.inode place.directory).links = 0 then throw .noEntry
  return place

/-- Makes a directory. -/
def makeDirectory (v : Volume) (now here : Nat) (path : Octets) (mode : Nat) :
    Except Refusal Volume := do
  let place ← v.freePlace here path true
  return (v.create now place (.directory place.directory []) mode).1

/-- Makes a file of another kind at a path. -/
def makeFile (v : Volume) (now here : Nat) (path : Octets) (content : Content) (mode : Nat) :
    Except Refusal Volume := do
  let place ← v.freePlace here path false
  return (v.create now place content mode).1

/-- Removes an empty directory. -/
def removeDirectory (v : Volume) (now here : Nat) (path : Octets) : Except Refusal Volume := do
  let place ← v.place here .entry path
  match place.inode? with
  | none => throw .noEntry
  | some n =>
    if place.name = "" then
      throw (if n = root then .busy
        else if (Text.pieces '/' path).getLast? = some ".." then .notEmpty else .invalidArgument)
    if !v.isDirectory n then throw .notDirectory
    if !(v.entries n).isEmpty then throw .notEmpty
    return (v.unlink now place.directory place.name).change n fun file => { file with links := 0 }

/-- Removes a name of a file that is no directory. -/
def removeFile (v : Volume) (now here : Nat) (path : Octets) : Except Refusal Volume := do
  let place ← v.place here .entry path
  match place.inode? with
  | none => throw .noEntry
  | some n =>
    if v.isDirectory n then throw .isDirectory
    if place.hasSlash then throw .notDirectory
    return (v.unlink now place.directory place.name).change n fun file =>
      { file with links := file.links - 1 }

/-- Whether a directory is another one or lies below it; there are at most `n` in between. -/
def isBelow (v : Volume) (top : Nat) : Nat → Nat → Bool
  | 0, _ => false
  | n + 1, directory =>
    directory == top || directory != root && isBelow v top n (v.above directory)

/-- Puts what is at a place under another name, in the place of what may be there. -/
def moveTo (v : Volume) (now : Nat) (source target : Place) (n : Nat) : Volume :=
  let v := match target.inode? with
    | some old => (v.unlink now target.directory target.name).change old fun file =>
        { file with links := if v.isDirectory old then 0 else file.links - 1 }
    | none => v
  let v := (v.unlink now source.directory source.name).link now target.directory target.name n
  v.change n fun file => match file.content with
    | .directory _ entries => { file with content := .directory target.directory entries }
    | _ => file

/-- Gives a file another name in the place of an old one. -/
def rename (v : Volume) (now here : Nat) (source target : Octets) : Except Refusal Volume := do
  let from_ ← v.place here .entry source
  let to_ ← v.place here .entry target
  if from_.name = "" ∨ to_.name = "" then throw .busy
  match from_.inode? with
  | none => throw .noEntry
  | some n =>
    let movesDirectory := v.isDirectory n
    if (from_.hasSlash || to_.hasSlash) && !movesDirectory then throw .notDirectory
    if movesDirectory && v.isBelow n v.inodes.size to_.directory then throw .invalidArgument
    match to_.inode? with
    | some old =>
      if old = n then return v
      if movesDirectory && !v.isDirectory old then throw .notDirectory
      if !movesDirectory && v.isDirectory old then throw .isDirectory
      if !(v.entries old).isEmpty then throw .notEmpty
      return v.moveTo now from_ to_ n
    | none => return v.moveTo now from_ to_ n

/-- Gives a file one more name. -/
def makeHardLink (v : Volume) (now here : Nat) (source target : Octets) :
    Except Refusal Volume := do
  let n ← v.find here .itself source
  let place ← v.freePlace here target false
  if v.isDirectory n then throw .notPermitted
  return (v.link now place.directory place.name n).change n fun file =>
    { file with links := file.links + 1 }

/-- The octets of a file from a place on. -/
def readAt (v : Volume) (n offset count : Nat) : Octets :=
  match (v.inode n).content with
  | .regular bytes => Octets.ofArray bytes offset count
  | _ => ""

/-- The array of bytes with others written over it from a place on, with zeros in
    between if the place lies behind its end. -/
def overwrite (bytes : ByteArray) (offset : Nat) (new : ByteArray) : ByteArray :=
  if offset = bytes.size then bytes ++ new
  else if offset < bytes.size then
    bytes.extract 0 offset ++ new ++ bytes.extract (offset + new.size) bytes.size
  else bytes ++ ByteArray.mk (Array.replicate (offset - bytes.size) 0) ++ new

/-- Writes octets into a file from a place on. -/
def writeAt (v : Volume) (now n offset : Nat) (octets : Octets) : Volume :=
  v.change n fun file => match file with
    | ⟨.regular bytes, mode, links, _⟩ =>
      ⟨.regular (overwrite bytes offset (Octets.toArray octets)), mode, links, now⟩
    | file => file

/-- Empties a file. -/
def empty (v : Volume) (now n : Nat) : Volume :=
  v.change n fun file => match file.content with
    | .regular _ => { file with content := .regular ByteArray.empty, time := now }
    | _ => file

/-- The path of a directory from the root; there are at most `n` directories above it. -/
def pathOf (v : Volume) : Nat → Nat → Except Refusal (List Octets)
  | 0, _ => .error .noEntry
  | n + 1, directory =>
    if directory = root then .ok []
    else
      let above := v.above directory
      match (v.entries above).find? fun entry => entry.2 == directory with
      | some (name, _) => do return (← pathOf v n above) ++ [name]
      | none => .error .noEntry

end Volume

end AheadOfTime
