import AheadOfTime.EntryPoint.Basic
import AheadOfTime.Text.Digits
import AheadOfTime.Text.UpperCase
import AheadOfTime.World

/-! # Drawing entry points

    A new entry point is named after a drawn text, in upper case.  A draw whose name was
    issued before is passed over, so no name is ever issued twice.  Draws come from a
    list first; after the list each draw is the count of draws so far, and among as many
    counts as there are issued names and one more, one is new. -/

namespace AheadOfTime

namespace Draws

/-- The name made from a drawn text. -/
def symbol (text : String) : String := EntryPoint.mark ++ Text.upperCase text

/-- The text of the draw with that number after the list has run out. -/
def counted (number : Nat) : String := Text.hex 32 number

/-- The number of the first counted draw from `number` on that gives a new name, among
    `tries` draws. -/
def firstNewCount (issued : List String) : Nat → Nat → Nat
  | 0, number => number
  | tries + 1, number =>
    if symbol (counted number) ∈ issued then firstNewCount issued tries (number + 1) else number

/-- Draws from the list until a name is new, and then from the count. -/
def nextFrom (issued : List String) : List String → Nat → String × Draws
  | [], made =>
    let number := firstNewCount issued issued.length (made + 1)
    (symbol (counted number), ⟨[], number, issued ++ [symbol (counted number)]⟩)
  | text :: later, made =>
    if symbol text ∈ issued then nextFrom issued later (made + 1)
    else (symbol text, ⟨later, made + 1, issued ++ [symbol text]⟩)

/-- The next new name. -/
def next (d : Draws) : String × Draws := nextFrom d.issued d.listed d.made

end Draws

/-- A new entry point.  The name counts as issued also when it is no identifier. -/
def EntryPoint.generate : Build EntryPoint := do
  let w ← get
  let (symbol, draws) := w.draws.next
  set { w with draws }
  Build.ofChecked (EntryPoint.ofSymbol symbol)

end AheadOfTime
