import AheadOfTime.EntryPoint.Basic
import AheadOfTime.Text.Split
import AheadOfTime.Tool.Run

/-! # Symbol listings

    Recovering the entry point of an object from the listing of its symbols, one name a
    line.  The object format puts an underscore in front of names.  The first name with
    the mark of entry points counts; an object for several architectures lists the same
    name once for each. -/

namespace AheadOfTime

namespace SymbolListing

/-- The options that list the names of defined, exported symbols. -/
def options : List String := ["-g", "-U", "-j"]

/-- The name on a line: without white space around, and without one leading underscore. -/
def nameOfLine (line : List Char) : List Char :=
  match Text.strip line with
  | '_' :: rest => rest
  | name => name

/-- Whether `needle` occurs in the text. -/
def occursIn (needle : List Char) : List Char → Bool
  | [] => needle.isEmpty
  | c :: rest => needle.isPrefixOf (c :: rest) || occursIn needle rest

/-- Whether a name is that of an entry point of a single module. -/
def isCandidate (name : List Char) : Bool :=
  EntryPoint.mark.toList.isPrefixOf name && !occursIn EntryPoint.collectiveMark.toList name

/-- The names in a listing that look like entry points, with repetitions. -/
def candidateLines (listing : List Char) : List (List Char) :=
  ((Text.lines listing).map nameOfLine).filter isCandidate

/-- The names in a listing that look like entry points, each once. -/
def candidates (listing : String) : List String :=
  (distinct (candidateLines listing.toList)).map String.ofList

/-- The entry point that a listing shows, and a warning if it shows several. -/
def entryPoint? (listing : String) (source : Option Path) : Build (Option EntryPoint) := do
  match candidates listing with
  | [] => return none
  | [symbol] => some <$> Build.ofChecked (EntryPoint.ofSymbol symbol)
  | symbol :: others =>
    Build.warn (.severalEntryPoints source (others.length + 1) symbol)
    some <$> Build.ofChecked (EntryPoint.ofSymbol symbol)

end SymbolListing

/-- The entry point of an object, as its symbol listing shows it. -/
def Host.scanEntryPoint (host : Host) (nm object : Path) : Build (Option EntryPoint) := do
  let result ← host.run {
    stage := .symbols
    argv := nm.toString :: SymbolListing.options ++ [object.toString]
    input := some object.toString }
  SymbolListing.entryPoint? result.output (some object)

end AheadOfTime
