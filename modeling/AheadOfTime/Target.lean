/-! # What is built, and for which machines

    The architectures that objects are compiled for and the kinds of output.  Architectures
    have one name in the build and another one in the compiler's back end.  Of those that
    are asked for several times the first one counts. -/

namespace AheadOfTime

/-- The elements in the order of their first occurrences, each once. -/
def distinct [DecidableEq α] : List α → List α
  | [] => []
  | a :: later => a :: (distinct later).filter (· ≠ a)

/-- An architecture that objects can be compiled for. -/
inductive Arch where
  | i386
  | x86_64
  | arm64
  deriving DecidableEq, Repr

namespace Arch

/-- Every architecture. -/
def all : List Arch := [i386, x86_64, arm64]

/-- The name in requests and commands. -/
def name : Arch → String
  | i386 => "i386"
  | x86_64 => "x86_64"
  | arm64 => "arm64"

/-- The name that the back end knows. -/
def backendName : Arch → String
  | i386 => "x86"
  | x86_64 => "x86-64"
  | arm64 => "aarch64"

/-- The architecture of a name. -/
def ofName? (s : String) : Option Arch := all.find? fun a => a.name == s

/-- The names of all architectures, for messages. -/
def supported : String := String.intercalate ", " (all.map name)

/-- The names that machines give themselves, in lower case. -/
def machineNames : List (String × Arch) :=
  [("x86_64", x86_64), ("amd64", x86_64), ("i386", i386), ("i686", i386), ("arm64", arm64),
    ("aarch64", arm64)]

/-- The architecture to build for on the machine of that name when none is asked for. -/
def ofMachine (machine : String) : Arch :=
  (machineNames.lookup machine.toLower).getD x86_64

end Arch

/-- A kind of output. -/
inductive OutputKind where
  | object
  | bundle
  | dylib
  | executable
  deriving DecidableEq, Repr

namespace OutputKind

/-- Every kind. -/
def all : List OutputKind := [object, bundle, dylib, executable]

/-- The name of a kind in requests and messages. -/
def name : OutputKind → String
  | object => "object"
  | bundle => "bundle"
  | dylib => "dylib"
  | executable => "executable"

/-- The kind of a name. -/
def ofName? (s : String) : Option OutputKind := all.find? fun k => k.name == s

/-- The names of all kinds, for messages. -/
def supported : String := String.intercalate ", " (all.map name)

/-- Whether every input gives an output of its own. -/
def isPerInput : OutputKind → Bool
  | object | bundle => true
  | dylib | executable => false

end OutputKind

end AheadOfTime
