import AheadOfTime.System.Shell.Pattern
import AheadOfTime.System.Utility.Lines
import AheadOfTime.System.Utility.Print

/-! # Files and directories

    Utilities that make, remove, copy, rename and list files. -/

namespace AheadOfTime.Utility

/-! ## Making files -/

/-- The path and those of the directories above it, outermost first. -/
def prefixes (path : Octets) : List Octets :=
  let names := path.splitOn "/"
  let all := (List.range names.length).map fun i => String.intercalate "/" (names.take (i + 1))
  (all.zip names).filterMap fun (text, name) => if name = "" ∨ name = "." then none else some text

/-- Makes directories, with `-p` those above them too. -/
def mkdir (arguments : List Octets) : Utility Unit := do
  let found ← readOptions "p" arguments
  if found.operands.isEmpty then failMissing
  for path in found.operands do
    for target in if found.has 'p' then prefixes path else [path] do
      if let .error reason ← ask (.makeDirectory target 0o777) then
        unless found.has 'p' && (← isDirectory target) do
          complain ("cannot create directory " ++ shown target ++ ": " ++ reason.text)

/-- Sets the times of files to the present one; those that are not there are made. -/
def touch (arguments : List Octets) : Utility Unit := do
  let found ← readOptions "" arguments
  for path in found.operands do
    match ← ask (.openFile path { writes := true, creates := true }) with
    | .error reason => complain ("cannot touch " ++ quoted path ++ ": " ++ reason.text)
    | .ok descriptor =>
      close descriptor
      discard (ask (.setTime path))

/-- Sets the permissions of files, which are written in octal digits. -/
def chmod (arguments : List Octets) : Utility Unit := do
  match (← readOptions "" arguments).operands with
  | mode :: paths =>
    unless mode.all (Number.isDigitOf 8) do failUse ("invalid mode: " ++ shown mode)
    for path in paths do
      if let .error reason ← ask (.setPermissions path (Number.ofDigits 8 mode.toList)) then
        complain ("cannot access " ++ quoted path ++ ": " ++ reason.text)
  | [] => failMissing

/-! ## Removing files -/

/-- Complains that a file cannot be removed. -/
def complainKept (path : Octets) (reason : Refusal) : Utility Unit :=
  complain ("cannot remove " ++ quoted path ++ ": " ++ reason.text)

/-- Removes a file, and all that is below it if `isDeep`; directories are nested at most
    `n` deep. -/
def remove (isDeep : Bool) : Nat → Octets → Utility Unit
  | 0, _ => return
  | n + 1, path => do
    match ← statusAt path false with
    | .error reason => complainKept path reason
    | .ok status =>
      let answer ← if status.kind = .directory ∧ isDeep = true then do
          if let .ok names ← ask (.namesIn path) then
            for name in names do remove isDeep n (Name.below path name)
          ask (.removeDirectory path)
        else ask (.removeFile path)
      if let .error reason := answer then complainKept path reason

/-- The deepest nesting of directories. -/
def depthLimit : Nat := 4096

/-- Removes files, with `-r` also directories; with `-f` those that are not there are
    passed over. -/
def rm (arguments : List Octets) : Utility Unit := do
  let found ← readOptions "fr" arguments
  for path in found.operands do
    unless found.has 'f' && (← statusAt? path false).isNone do
      remove (found.has 'r') depthLimit path

/-- Removes empty directories. -/
def rmdir (arguments : List Octets) : Utility Unit := do
  let found ← readOptions "" arguments
  if found.operands.isEmpty then failMissing
  for path in found.operands do
    if let .error reason ← ask (.removeDirectory path) then
      complain ("failed to remove " ++ quoted path ++ ": " ++ reason.text)

/-! ## Other places and names -/

/-- Runs a computation on every source with its target: with a directory as the last
    argument everything goes into it under its own name. -/
def eachTarget (operands : List Octets) (act : Octets → Octets → Utility Unit) : Utility Unit := do
  match operands with
  | [] => failUse "missing file operand"
  | [single] => failUse ("missing destination file operand after " ++ quoted single)
  | operands =>
    let last := operands.getLastD ""
    if ← isDirectory last then
      for source in operands.dropLast do
        act source (Name.below last (Name.last source))
    else if operands.length = 2 then act (operands.headD "") last
    else fail ("target " ++ quoted last ++ ": " ++ Refusal.notDirectory.text)

/-- Copies what a file holds. -/
def copy (source target : Octets) : Utility Unit := do
  match ← statusAt source true with
  | .error reason => complain ("cannot stat " ++ quoted source ++ ": " ++ reason.text)
  | .ok status =>
    let there ← statusAt? target true
    if status.kind = .directory then
      complain ("-r not specified; omitting directory " ++ quoted source)
    else if there.any (·.inode == status.inode) then
      complain (quoted source ++ " and " ++ quoted target ++ " are the same file")
    else
      match ← readInput source, ← ask (.openFile target
        { OpenMode.output with permissions := status.mode &&& 0o777 }) with
      | .error reason, _ =>
        complain ("cannot open " ++ quoted source ++ " for reading: " ++ reason.text)
      | .ok _, .error reason =>
        complain ("cannot create regular file " ++ quoted target ++ ": " ++ reason.text)
      | .ok text, .ok descriptor =>
        discard (ask (.write descriptor text))
        close descriptor

/-- Copies files. -/
def cp (arguments : List Octets) : Utility Unit := do
  eachTarget (← readOptions "" arguments).operands copy

/-- Puts files under other names. -/
def mv (arguments : List Octets) : Utility Unit := do
  eachTarget (← readOptions "" arguments).operands fun source target => do
    match ← statusAt source false with
    | .error reason => complain ("cannot stat " ++ quoted source ++ ": " ++ reason.text)
    | .ok status =>
      if (← statusAt? target false).any (·.inode == status.inode) then
        complain (quoted source ++ " and " ++ quoted target ++ " are the same file")
      else if let .error reason ← ask (.rename source target) then
        complain ("cannot move " ++ quoted source ++ " to " ++ quoted target ++ ": " ++ reason.text)

/-- Gives files more names, with `-s` by links that hold their paths. -/
def ln (arguments : List Octets) : Utility Unit := do
  let found ← readOptions "s" arguments
  eachTarget found.operands fun source target => do
    let answer ← if found.has 's' then ask (.makeLink source target)
      else ask (.makeHardLink source target)
    if let .error reason := answer then
      complain ("failed to create " ++ (if found.has 's' then "symbolic" else "hard") ++ " link " ++
        quoted target ++ ": " ++ reason.text)

/-! ## What there is -/

/-- Lists directories, of which names with a dot in front are left out, and other files. -/
def ls (arguments : List Octets) : Utility Unit := do
  let found ← readOptions "" arguments
  let paths := if found.operands.isEmpty then ["."] else found.operands
  let mut files : List Octets := []
  let mut directories : List Octets := []
  for path in paths do
    match ← statusAt path true with
    | .error reason =>
      complain ("cannot access " ++ quoted path ++ ": " ++ reason.text) 2
    | .ok status =>
      if status.kind = .directory then directories := directories ++ [path]
      else files := files ++ [path]
  for file in files.mergeSort do printLine file
  for path in directories.mergeSort do
    if 1 < paths.length then
      print ((if files.isEmpty && some path = directories.mergeSort.head? then "" else "\n") ++
        path ++ ":\n")
    match ← ask (.namesIn path) with
    | .error reason => complain ("cannot open directory " ++ quoted path ++ ": " ++ reason.text) 2
    | .ok names =>
      for name in (names.filter fun name => !name.startsWith ".").mergeSort do printLine name

/-- Prints the paths from a directory on whose last name a pattern describes;
    directories are nested at most `n` deep. -/
def findBelow (pattern : Option Octets) : Nat → Octets → Utility Unit
  | 0, _ => return
  | n + 1, path => do
    if pattern.all fun text => Shell.Pattern.describes text.toList (Name.last path).toList then
      printLine path
    if (← statusAt? path false).any (·.kind == .directory) then
      if let .ok names ← ask (.namesIn path) then
        for name in names do findBelow pattern n (Name.below path name)

/-- Prints the paths below a directory, or those whose names a pattern describes. -/
def find (arguments : List Octets) : Utility Unit := do
  match arguments with
  | [path] => findBelow none depthLimit path
  | [path, "-name", pattern] => findBelow (some pattern) depthLimit path
  | _ => fail ("unknown predicate " ++ quoted (arguments.getD 1 ""))

end AheadOfTime.Utility
