import AheadOfTime.Problem

/-! # Notices

    What a build warns about without stopping. -/

namespace AheadOfTime

/-- A warning. -/
inductive Notice where
  /-- An object, if it is known which, exports several entry points; the first one is used. -/
  | severalEntryPoints (source : Option Path) (count : Nat) (used : String)
  /-- Frameworks were named for a kind of output that links none. -/
  | ignoredFrameworks (kind : OutputKind)
  /-- Linker options were given that only dynamic libraries take. -/
  | ignoredLinkerOptions (kind : OutputKind) (options : List String)
  /-- A framework ships no metadata for the front end. -/
  | noBridgingMetadata (framework : String)
  deriving DecidableEq, Repr

/-- The warning in words. -/
def Notice.message : Notice → String
  | severalEntryPoints source count used =>
    (source.map Path.toString).getD "object" ++ " exports " ++ toString count ++
      " entry point candidates; using `" ++ used ++ "`."
  | ignoredFrameworks kind =>
    "Frameworks are only linked into executables; ignoring them for `" ++ kind.name ++ "`."
  | ignoredLinkerOptions kind options =>
    String.intercalate ", " options ++ " only apply to dynamic libraries; ignoring them for `" ++
      kind.name ++ "`."
  | noBridgingMetadata framework =>
    "Couldn't locate bridging metadata for framework `" ++ framework ++ "`."

end AheadOfTime
