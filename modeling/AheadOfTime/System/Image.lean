import AheadOfTime.System.Volume

/-! # Program files

    What the system makes of a program file.  A file whose first line names an
    interpreter is run by that one, with the path of the file among the arguments.  The
    programs of the system itself are files that consist of a mark and a name. -/

namespace AheadOfTime

/-- A program of the system with the arguments it gets, its own name first. -/
structure Image where
  program : String
  argv : List Octets
  deriving DecidableEq, Repr

namespace Image

/-- What the file of a system program starts with. -/
def mark : Octets := "\x7fELF"

/-- How much of a program file is looked at for an interpreter. -/
def headLength : Nat := 256

/-- Whether `c` separates the words of an interpreter line. -/
def isBlank (c : Char) : Bool := c == ' ' || c == '\t'

/-- What an interpreter line says: the interpreter and its argument, if it has one.  A
    line that does not end in the part looked at counts up to the end of that part, if a
    blank or the end of the file shows that the interpreter's name is complete. -/
def interpreter? (head : Octets) : Option (Octets × List Octets) :=
  match head.toList with
  | '#' :: '!' :: rest =>
    let isCut := !rest.contains '\n'
    let line := if isCut then rest.take (headLength - 3) else rest.takeWhile (· ≠ '\n')
    let start := line.dropWhile isBlank
    if isCut && headLength ≤ head.length && !start.any fun c => isBlank c || c == '\x00' then none
    else
      let line := (start.reverse.dropWhile isBlank).reverse
      let name := line.takeWhile fun c => !isBlank c && c ≠ '\x00'
      let argument := ((line.drop name.length).dropWhile isBlank).takeWhile (· ≠ '\x00')
      if name.isEmpty then none
      else some (String.ofList name,
        if argument.isEmpty then [] else [String.ofList argument])
  | _ => none

/-- How the file at a path is run; interpreters may themselves be run by others, up to a
    number. -/
def find (v : Volume) (here : Nat) : Nat → Octets → List Octets → Except Refusal Image
  | interpreters, path, argv => do
    let n ← v.find here .target path
    let file := v.inode n
    if file.content.kind ≠ .regular ∨ file.mode &&& 0o111 = 0 then throw .permission
    let head := v.readAt n 0 headLength
    if mark.isPrefixOf head then return ⟨(head.drop mark.length).toString, argv⟩
    match interpreter? head, interpreters with
    | none, _ => throw .notExecutableFormat
    | some _, 0 => throw .linkLoop
    | some (name, argument), interpreters + 1 =>
      find v here interpreters name (name :: argument ++ path :: argv.drop 1)

/-- The most interpreters that stand between a file and the program that runs it. -/
def interpreterLimit : Nat := 5

/-- The directories in which a program is looked for, as a search path names them,
    joined with its name; a name with a slash is a path itself. -/
def candidates (searchPath name : Octets) : List Octets :=
  if name.contains '/' then [name]
  else (Text.pieces ':' searchPath).map fun directory =>
    if directory = "" then name
    else if directory.endsWith "/" then directory ++ name
    else directory ++ "/" ++ name

/-- Whether the refusal says that a path leads to no file. -/
def isAbsence (reason : Refusal) : Bool := reason == .noEntry || reason == .notDirectory

end Image

end AheadOfTime
