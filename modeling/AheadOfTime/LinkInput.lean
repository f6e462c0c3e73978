import AheadOfTime.EntryPoint.Basic

/-! # Units and link inputs

    A compiled unit is an object with the source it came from and the entry point it was
    given.  A link input is anything that is linked: a feature is the name under which
    its module registers. -/

namespace AheadOfTime

/-- A compiled source. -/
structure CompiledUnit where
  source : Path
  path : Path
  entryPoint : EntryPoint
  deriving DecidableEq, Repr

/-- A file to be linked. -/
structure LinkInput where
  path : Path
  entryPoint : Option EntryPoint
  feature : String
  deriving DecidableEq, Repr

namespace LinkInput

/-- The link input of a file; without a feature of its own it has the stem of the file's name. -/
def of (path : Path) (entryPoint : Option EntryPoint) (feature : String) : LinkInput :=
  ⟨path, entryPoint, if feature = "" then path.stem else feature⟩

/-- The link input of a compiled unit. -/
def ofUnit (u : CompiledUnit) : LinkInput := of u.path (some u.entryPoint) u.source.stem

end LinkInput

end AheadOfTime
