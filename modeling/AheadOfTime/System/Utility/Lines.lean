import AheadOfTime.System.Number
import AheadOfTime.System.Utility.Basic

/-! # Lines and bytes

    Utilities that go through the lines or the bytes of files: printing, counting,
    sorting, comparing and replacing them. -/

namespace AheadOfTime.Utility

/-- Runs a computation on what each file holds; complains about those that cannot be
    read. -/
def eachInput (files : List Octets) (act : Octets → Octets → Utility Unit) : Utility Unit := do
  for file in files do
    match ← readInput file with
    | .error reason => complain (quotedIfNeeded file ++ ": " ++ reason.text)
    | .ok text => act file text

/-- Copies what is left of an input to the output and to other descriptors. -/
def pour (source : Nat) (others : List Nat) : Utility (Except Refusal Unit) :=
  repeatUntil (.ok ()) (fun () => do
    match ← readChunk source with
    | .error reason => return .done (.error reason)
    | .ok "" => return .done (.ok ())
    | .ok chunk =>
      print chunk
      flush
      for descriptor in others do
        discard (ask (.write descriptor chunk))
      return .again ()) ()

/-- A number with blanks in front of it, up to a width. -/
def padded (width n : Nat) : Octets :=
  "".pushn ' ' (width - (toString n).length) ++ toString n

/-- Prints files in a row, with `-n` each line behind its number. -/
def cat (arguments : List Octets) : Utility Unit := do
  let found ← readOptions "n" arguments
  let mut line := 0
  for file in inputs found.operands do
    match ← openInput file with
    | .error reason => complain (quotedIfNeeded file ++ ": " ++ reason.text)
    | .ok descriptor =>
      if found.has 'n' then
        if let .ok text ← perform (Task.readAll descriptor) then
          for text in wholeLinesOf text do
            line := line + 1
            print (padded 6 line ++ "\t" ++ text)
      else if let .error reason ← pour descriptor [] then
        complain (quotedIfNeeded file ++ ": " ++ reason.text)
      if file ≠ "-" then close descriptor

/-- Copies its input to its output and to files. -/
def tee (arguments : List Octets) : Utility Unit := do
  let found ← readOptions "" arguments
  let mut targets : List Nat := []
  for file in found.operands do
    match ← ask (.openFile file .output) with
    | .ok descriptor => targets := targets ++ [descriptor]
    | .error reason => complain (quotedIfNeeded file ++ ": " ++ reason.text)
  if let .error reason ← pour 0 targets then complain ("read error: " ++ reason.text)

/-- The number of lines that is asked for, with `-n` or as an option of its own, and the
    other arguments. -/
def lineCount (arguments : List Octets) : Utility (Nat × List Octets) := do
  let expanded := match arguments with
    | first :: rest =>
      let digits := first.toList.drop 1
      if first.startsWith "-" && (Number.decimal? digits).isSome then
        "-n" :: String.ofList digits :: rest
      else arguments
    | [] => []
  let found ← readOptions "n:" expanded
  let text := (found.value? 'n').getD "10"
  match Number.decimal? text.toList with
  | some n => return (n, inputs found.operands)
  | none => fail ("invalid number of lines: " ++ shown text)

/-- Prints the first lines of files. -/
def head (arguments : List Octets) : Utility Unit := do
  let (count, files) ← lineCount arguments
  eachInput files fun _ text => do
    for line in (wholeLinesOf text).take count do print line

/-- Prints the last lines of files. -/
def tail (arguments : List Octets) : Utility Unit := do
  let (count, files) ← lineCount arguments
  eachInput files fun _ text => do
    let lines := wholeLinesOf text
    for line in lines.drop (lines.length - count) do print line

/-- Prints how many lines, words and bytes there are in files, or those of these numbers
    that options ask for. -/
def wc (arguments : List Octets) : Utility Unit := do
  let found ← readOptions "clw" arguments
  eachInput (inputs found.operands) fun file text => do
    let ends := text.map fun c => if c.isWhitespace then ' ' else c
    let words := (ends.splitOn " ").filter (· ≠ "")
    let all := [('l', text.toList.count '\n'), ('w', words.length), ('c', text.length)]
    let chosen := if found.options.isEmpty then all else all.filter fun entry => found.has entry.1
    let name := if found.operands.isEmpty then "" else " " ++ file
    printLine (String.intercalate " " (chosen.map fun entry => toString entry.2) ++ name)

/-- Brings lines into order; with `-r` the greatest one comes first, and with `-u` those
    that are alike come once. -/
def sort (arguments : List Octets) : Utility Unit := do
  let found ← readOptions "ru" arguments
  let mut lines : List Octets := []
  for file in inputs found.operands do
    match ← readInput file with
    | .error reason => fail ("cannot read: " ++ quotedIfNeeded file ++ ": " ++ reason.text) 2
    | .ok text => lines := lines ++ linesOf text
  let sorted := lines.mergeSort fun a b => a ≤ b
  let sorted := if found.has 'u' then sorted.eraseDups else sorted
  for line in if found.has 'r' then sorted.reverse else sorted do printLine line

/-- Tells the first place at which two files differ. -/
def cmp (arguments : List Octets) : Utility Unit := do
  let found ← readOptions "s" arguments
  let read (path : Octets) : Utility Octets := do
    match ← readInput path with
    | .ok text => return text
    | .error reason => fail (path ++ ": " ++ reason.text) 2
  let first := found.operands.headD ""
  let second := found.operands.getD 1 "-"
  let a := (← read first).toList
  let b := (← read second).toList
  let alike := ((a.zip b).takeWhile fun (c, d) => c = d).length
  if a ≠ b then
    setStatus 1
    unless found.has 's' do
      if alike = a.length ∨ alike = b.length then
        complain ("EOF on " ++ (if alike = a.length then first else second) ++ " after byte " ++
          toString alike)
      else printLine (first ++ " " ++ second ++ " differ: byte " ++ toString (alike + 1) ++
        ", line " ++ toString ((a.take alike).count '\n' + 1))

/-! ## Replacing bytes -/

/-- The bytes that a list of them stands for: a hyphen makes a range, and a backslash an
    escape.  At most `n` of its characters are read. -/
def byteList : Nat → List Char → List Char
  | 0, _ => []
  | _, [] => []
  | n + 1, '\\' :: c :: rest =>
    ([('n', '\n'), ('r', '\r'), ('t', '\t')].lookup c).getD c :: byteList n rest
  | n + 1, c :: '-' :: d :: rest =>
    ((List.range (d.toNat + 1 - c.toNat)).map fun i => Char.ofNat (c.toNat + i)) ++ byteList n rest
  | n + 1, c :: rest => c :: byteList n rest

/-- Puts bytes in the places of others, or deletes them. -/
def tr (arguments : List Octets) : Utility Unit := do
  let found ← readOptions "d" arguments true
  let bytes (i : Nat) : List Char :=
    let text := (found.operands.getD i "").toList
    byteList text.length text
  let source := bytes 0
  let target := bytes 1
  let become (c : Char) : Char :=
    match source.reverse.idxOf? c with
    | none => c
    | some i => (target[source.length - 1 - i]?).getD (target.getLastD c)
  repeatUntil () (fun () => do
    match ← readChunk 0 with
    | .error reason =>
      complain ("read error: " ++ reason.text)
      return .done ()
    | .ok "" => return .done ()
    | .ok chunk =>
      if found.has 'd' then print (String.ofList (chunk.toList.filter fun c => !source.contains c))
      else print (chunk.map become)
      return .again ()) ()

end AheadOfTime.Utility
