import AheadOfTime.Text.CharSet
import AheadOfTime.Tool.Run
import AheadOfTime.Toolchain.Basic
import AheadOfTime.World

/-! # Flags that depend on what there is

    Which option for exception handling the back end takes is read off its help text.  A
    flag is a hyphen, a letter, and the word characters and hyphens after it; a flag that
    is only the start of a longer one does not count.

    Static executables have the metadata of their frameworks compiled in.  A framework that
    ships none is warned about and left out. -/

namespace AheadOfTime

namespace HelpText

/-- Whether `c` can go on a flag. -/
def isFlagPart (c : Char) : Bool := Text.isWord c || c == '-'

/-- The flags in a text, from left to right. -/
def flags : List Char → List (List Char)
  | [] => []
  | [_] => []
  | a :: b :: rest =>
    if a = '-' ∧ b.isAlpha = true then
      (a :: b :: rest.takeWhile isFlagPart) :: flags (rest.dropWhile isFlagPart)
    else flags (b :: rest)
termination_by cs => cs.length
decreasing_by
  · have := (List.dropWhile_sublist isFlagPart (l := rest)).length_le
    simp only [List.length_cons]
    omega
  · simp

/-- Whether a text mentions a flag. -/
def mentions (text flag : String) : Bool := (flags text.toList).contains flag.toList

end HelpText

/-- The options for exception handling, the preferred one first. -/
def exceptionFlagChoices : List String := ["-disable-cfi", "-enable-eh"]

/-- The option for exception handling that a help text offers. -/
def exceptionFlags (help : String) : List String :=
  (exceptionFlagChoices.find? (HelpText.mentions help)).toList

/-- Asks the back end which option for exception handling it takes. -/
def Host.probeExceptionFlags (host : Host) (backend : Path) : Build (List String) := do
  let result ← host.run {
    stage := .probe
    argv := [backend.toString, "-help"]
    isChecked := false }
  return exceptionFlags result.output

/-- The options that make the front end load the metadata of the frameworks. -/
def Toolchain.bridgingFlags (t : Toolchain) : List String → Build (List String)
  | [] => return []
  | framework :: later => do
    let path := t.bridgeSupportPath framework
    if ← Build.ofFallible ((← get).files.exists? path) then
      return "--uses-bs" :: path.toString :: (← t.bridgingFlags later)
    else
      Build.warn (.noBridgingMetadata framework)
      t.bridgingFlags later

end AheadOfTime
