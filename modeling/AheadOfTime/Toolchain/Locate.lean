import AheadOfTime.FileTree.Basic
import AheadOfTime.Toolchain.Basic

/-! # Looking up tools

    Every tool of a toolchain as the absolute path of an executable.  A bare name is
    looked for in the runtime's own program directory first and then along the search
    path; a name with a slash is taken as a path and has to be an executable file. -/

namespace AheadOfTime

/-- The executable for every role. -/
structure ToolPaths where
  frontend : Path
  backend : Path
  cc : Path
  lipo : Path
  nm : Path
  strip : Path
  deriving DecidableEq, Repr

namespace FileTree

/-- The path seen from the root, with links and double dots left as they are. -/
def absolute (t : FileTree) (p : Path) : Path := (Path.mk .root t.workingDirectory).join p

/-- The entry `name` of a directory on a search path; an empty directory is the working
    directory. -/
def searchEntry (directory name : String) : Path :=
  if directory = "" ∨ directory.toList.getLast? = some '/' then .ofString (directory ++ name)
  else .ofString (directory ++ "/" ++ name)

/-- The executable that a bare name stands for: the first one of that name along the
    directories.  The empty name and a single dot name no file. -/
def searchProgram (t : FileTree) (directories : List String) (name : String) : Option Path :=
  if !Path.isName name then none
  else (directories.map (searchEntry · name)).find? t.holdsProgram

end FileTree

namespace Toolchain

/-- The directories in which tools are looked for. -/
def searchDirectories (t : Toolchain) (searchPath : String) : List String :=
  Text.pieces ':'
    (if searchPath = "" then t.binDir.toString else t.binDir.toString ++ ":" ++ searchPath)

/-- The executable for a role, if there is one. -/
def locateTool (t : Toolchain) (files : FileTree) (searchPath : String) (role : ToolRole) :
    Except Fault (Option Path) := do
  let name := t.toolName role
  if name.toList.contains '/' then
    let path := Path.ofString name
    return if ← files.isProgram? path then some (files.absolute path) else none
  else
    return (files.searchProgram (t.searchDirectories searchPath) name).map files.absolute

/-- The executable for a role; that there is none is a problem. -/
def requireTool (t : Toolchain) (files : FileTree) (searchPath : String) (role : ToolRole) :
    Except Failure Path :=
  match t.locateTool files searchPath role with
  | .error fault => .error (.fault fault)
  | .ok none => .error (.problem (.toolNotFound role (t.toolName role)))
  | .ok (some path) => .ok path

/-- The executable for every role; the first role without one is a problem. -/
def locateTools (t : Toolchain) (files : FileTree) (searchPath : String) :
    Except Failure ToolPaths := do
  let frontend ← t.requireTool files searchPath .frontend
  let backend ← t.requireTool files searchPath .backend
  let cc ← t.requireTool files searchPath .cc
  let lipo ← t.requireTool files searchPath .lipo
  let nm ← t.requireTool files searchPath .nm
  let strip ← t.requireTool files searchPath .strip
  return { frontend, backend, cc, lipo, nm, strip }

end Toolchain

end AheadOfTime
