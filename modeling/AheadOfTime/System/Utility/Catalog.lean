import AheadOfTime.System.Shell.Program
import AheadOfTime.System.Utility.Print
import AheadOfTime.System.Utility.Files
import AheadOfTime.System.Utility.Match

/-! # The programs of the system

    Which programs there are, and where they lie: the shell and the utilities are files
    that hold a mark and their name, in a directory that has two names. -/

namespace AheadOfTime.Utility.Catalog

/-- The utilities. -/
def utilities : List (String × (List Octets → Utility Unit)) :=
  [("basename", basename), ("cat", cat), ("chmod", chmod), ("cmp", cmp), ("cp", cp),
    ("dirname", dirname), ("echo", echo), ("env", env), ("false", refuse), ("find", find),
    ("grep", grep), ("head", head), ("ln", ln), ("ls", ls), ("mkdir", mkdir), ("mv", mv),
    ("pwd", pwd), ("rm", rm), ("rmdir", rmdir), ("sed", sed), ("sleep", sleep), ("sort", sort),
    ("tail", tail), ("tee", tee), ("test", test), ("touch", touch), ("tr", tr), ("true", succeed),
    ("wc", wc)]

/-- The names of the shell. -/
def shells : List String := ["dash", "sh"]

/-- The names of all programs. -/
def names : List String := shells ++ utilities.map Prod.fst

/-- The process that a program becomes with its arguments and an environment. -/
def load (program : String) (argv environment : List Octets) : Option Process :=
  if shells.contains program then some (Shell.process argv environment)
  else (utilities.lookup program).map fun act => Utility.process act argv environment

/-- Where the programs lie. -/
def location : Location := ["usr", "bin"]

/-- The other entries that every system has. -/
def surroundings : List (Location × Entry) :=
  [(["bin"], .link "usr/bin"), (["etc"], .directory), (["home"], .directory),
    (["root"], .directory), (["usr"], .directory), (location, .directory), (["var"], .directory)]

/-- Puts the programs into a file tree. -/
def install (files : FileTree) : FileTree :=
  let withDirectories := surroundings.foldl (fun files (l, entry) => files.put l entry) files
  names.foldl (fun files name =>
    files.put (location ++ [name]) (.file (Octets.toBytes (Image.mark ++ name)) true))
    withDirectories

end AheadOfTime.Utility.Catalog
