import AheadOfTime.Path
import AheadOfTime.Text.Quoted

/-! # Faults

    What can go wrong outside the build's own rules: the system refuses an operation on
    a file, or a value cannot be used at all.  Each fault has one message. -/

namespace AheadOfTime

/-- Why the system refuses an operation. -/
inductive Refusal where
  | notPermitted
  | noEntry
  | noProcess
  | interrupted
  | ioError
  | noDevice
  | argumentsTooLong
  | notExecutableFormat
  | badDescriptor
  | noChild
  | permission
  | busy
  | alreadyExists
  | crossDevice
  | notDirectory
  | isDirectory
  | invalidArgument
  | noTerminal
  | noSpace
  | illegalSeek
  | brokenPipe
  | nameTooLong
  | notEmpty
  | linkLoop
  deriving DecidableEq, Repr

namespace Refusal

/-- The number of the refusal. -/
def number : Refusal → Nat
  | notPermitted => 1
  | noEntry => 2
  | noProcess => 3
  | interrupted => 4
  | ioError => 5
  | noDevice => 6
  | argumentsTooLong => 7
  | notExecutableFormat => 8
  | badDescriptor => 9
  | noChild => 10
  | permission => 13
  | busy => 16
  | alreadyExists => 17
  | crossDevice => 18
  | notDirectory => 20
  | isDirectory => 21
  | invalidArgument => 22
  | noTerminal => 25
  | noSpace => 28
  | illegalSeek => 29
  | brokenPipe => 32
  | nameTooLong => 36
  | notEmpty => 39
  | linkLoop => 40

/-- The refusal in words. -/
def text : Refusal → String
  | notPermitted => "Operation not permitted"
  | noEntry => "No such file or directory"
  | noProcess => "No such process"
  | interrupted => "Interrupted system call"
  | ioError => "Input/output error"
  | noDevice => "No such device or address"
  | argumentsTooLong => "Argument list too long"
  | notExecutableFormat => "Exec format error"
  | badDescriptor => "Bad file descriptor"
  | noChild => "No child processes"
  | permission => "Permission denied"
  | busy => "Device or resource busy"
  | alreadyExists => "File exists"
  | crossDevice => "Invalid cross-device link"
  | notDirectory => "Not a directory"
  | isDirectory => "Is a directory"
  | invalidArgument => "Invalid argument"
  | noTerminal => "Inappropriate ioctl for device"
  | noSpace => "No space left on device"
  | illegalSeek => "Illegal seek"
  | brokenPipe => "Broken pipe"
  | nameTooLong => "File name too long"
  | notEmpty => "Directory not empty"
  | linkLoop => "Too many levels of symbolic links"

end Refusal

/-- A fault outside the build's own rules. -/
inductive Fault where
  /-- The system refuses an operation on the path as it was given. -/
  | refused (reason : Refusal) (path : String)
  /-- The text is no file extension. -/
  | invalidExtension (extension : String)
  /-- The path has no last name to work on. -/
  | emptyName (path : Path)
  /-- A path or an argument holds a NUL, which no system call can take. -/
  | nullByte
  /-- A command is shorter than its use demands. -/
  | missingArgument
  /-- The text is no error code. -/
  | unknownCode (code : String)
  /-- Nothing has been given where a path is needed. -/
  | noPath
  /-- Nothing has been given where a number is needed. -/
  | noNumber
  deriving DecidableEq, Repr

namespace Fault

/-- The fault in words. -/
def message : Fault → String
  | refused reason path =>
    "[Errno " ++ toString reason.number ++ "] " ++ reason.text ++ ": " ++ Text.shown path
  | invalidExtension extension => "Invalid suffix " ++ Text.shown extension
  | emptyName path => "PosixPath(" ++ Text.shown path.toString ++ ") has an empty name"
  | nullByte => "embedded null byte"
  | missingArgument => "tuple index out of range"
  | unknownCode code => Text.shown code ++ " is not a valid ErrorCode"
  | noPath => "expected str, bytes or os.PathLike object, not list"
  | noNumber => "'<' not supported between instances of 'list' and 'int'"

end Fault

/-- The path with another extension, or none at all if `extension` is empty. -/
def Path.withExtension (p : Path) (extension : String) : Except Fault Path :=
  if !isExtension extension then .error (.invalidExtension extension)
  else if p.name = "" then .error (.emptyName p)
  else .ok (p.withName (p.stem ++ extension))

end AheadOfTime
