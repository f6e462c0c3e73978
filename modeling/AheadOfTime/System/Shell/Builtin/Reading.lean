import AheadOfTime.System.Shell.Field
import AheadOfTime.System.Shell.Variables

/-! # Reading input and options

    The builtins that read a line into variables and that read options one by one. -/

namespace AheadOfTime.Shell.Builtin

/-- A line that is being read, the place where what may be split starts, whether a
    backslash stands in front of the next byte, and what the line ends with. -/
structure LineInput where
  line : Expansion := {}
  start : Nat := 0
  isEscaped : Bool := false

namespace LineInput

/-- The line with what may be split so far marked, up to a place; more follows from
    another place on. -/
def markTo (l : LineInput) (stop : Nat) : LineInput :=
  { l with
    line := { l.line with regions := l.line.regions ++ [⟨l.start, stop, false⟩] }
    start := l.line.glyphs.size, isEscaped := false }

/-- The line with a byte more; nothing if the byte ends it. -/
def next (isRaw : Bool) (l : LineInput) (c : Char) : Option LineInput :=
  let size := l.line.glyphs.size
  if c = '\x00' then some l
  else if l.isEscaped then
    if c = '\n' then some (l.markTo size)
    else
      let l := { l with line := l.line.push (.char c true) }
      some (l.markTo size)
  else if !isRaw && c = '\\' then some { l with isEscaped := true }
  else if c = '\n' then none
  else some { l with line := l.line.push (.char c true) }

end LineInput

/-- Reads a line; answers also whether it has an end. -/
def inputLine (isRaw : Bool) : Script (Expansion × Bool) := do
  repeatUntil ({}, false) (fun (l : LineInput) => do
    let finish (hasEnd : Bool) : Round LineInput (Expansion × Bool) :=
      .done ((l.markTo l.line.glyphs.size).line, hasEnd)
    match ← Script.ask (.read 0 1) with
    | .ok "" => return finish false
    | .ok text => match l.next isRaw (text.toList.headD '\x00') with
      | some l => return .again l
      | none => return finish true
    | .error _ => return finish false) {}

/-- Reads a line into variables; the last one gets all that is left. -/
def read (arguments : List Octets) : Script Nat := do
  let (options, names) ← Script.readOptions "p:r" arguments
  if names.isEmpty then Script.stop "arg count"
  let isRaw := options.any fun option => option.1 == 'r'
  let (line, hasEnd) ← inputLine isRaw
  let fields := line.fields (← Script.separators) (some names.length)
  for (name, i) in names.zipIdx do
    Script.assign name (Glyph.text (fields[i]?.getD []))
  return if hasEnd then 0 else 1

/-- Whether an option is among the letters of a text, and whether it takes an argument. -/
def optionKind? (letters : List Char) (c : Char) : Option Bool :=
  match letters with
  | [] => none
  | d :: rest =>
    if d = c then some (rest.head? == some ':')
    else optionKind? (if rest.head? = some ':' then rest.drop 1 else rest) c
termination_by letters.length
decreasing_by split <;> simp only [List.length_cons, List.length_drop] <;> omega

/-- Reads the next option of parameters. -/
def nextOption (letters variable_ : Octets) (parameters : List Octets) : Script Nat := do
  let place := (← get).optionPlace
  let word? (i : Nat) : Option (List Char) := parameters[i]?.map String.toList
  let inWord := match place.offset, place.index with
    | some offset, index + 2 => ((word? index).getD []).drop offset
    | _, _ => []
  let here := place.index - 1
  let finish (letter : Char) (index : Nat) (offset : Option Nat) (status : Nat) : Script Nat := do
    Script.put "OPTIND" { value := some (toString (index + 1)) } true
    Script.assign variable_ (String.singleton letter)
    modify fun s => { s with optionPlace := { index := index + 1, offset } }
    return status
  let isQuiet := letters.startsWith ":"
  let go (c : Char) (rest : List Char) (here : Nat) : Script Nat := do
    let offset := if here = 0 then none
      else some (((word? (here - 1)).getD []).length - rest.length)
    match optionKind? letters.toList c with
    | none =>
      if isQuiet then Script.assign "OPTARG" (String.singleton c)
      else
        Script.writeMessage ("Illegal option -" ++ String.singleton c ++ "\n")
        Script.unset "OPTARG"
      finish '?' here offset 0
    | some false =>
      Script.assign "OPTARG" ""
      finish c here offset 0
    | some true =>
      match rest, word? here with
      | [], none =>
        if isQuiet then
          Script.assign "OPTARG" (String.singleton c)
          finish ':' here none 0
        else
          Script.writeMessage ("No arg for -" ++ String.singleton c ++ " option\n")
          Script.unset "OPTARG"
          finish '?' here none 0
      | [], some value =>
        Script.assign "OPTARG" (String.ofList value)
        finish c (here + 1) none 0
      | rest, _ =>
        Script.assign "OPTARG" (String.ofList rest)
        finish c here none 0
  match inWord, word? here with
  | c :: rest, _ => go c rest here
  | [], some ['-', '-'] => finish '?' (here + 1) none 1
  | [], some ('-' :: c :: rest) => go c rest (here + 1)
  | [], _ => finish '?' here none 1

/-- Reads the next option of the script's parameters, or of arguments. -/
def getopts (arguments : List Octets) : Script Nat := do
  let (_, rest) ← Script.readOptions "" arguments
  match rest with
  | letters :: name :: given =>
    let s ← get
    let parameters := if given.isEmpty then s.parameters else given
    if parameters.length + 1 < s.optionPlace.index then
      modify fun s => { s with optionPlace := {} }
    nextOption letters name parameters
  | _ => Script.stop "Usage: getopts optstring var [arg]"

end AheadOfTime.Shell.Builtin
