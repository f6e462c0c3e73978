import AheadOfTime.System.Utility.Lines

/-! # Lines that fit a pattern

    A pattern is a row of bytes and sets of bytes, each perhaps with a star behind it,
    that may have to stand at the start or at the end of a line.  `grep` looks for it in
    lines, and `sed` puts other texts in its place. -/

namespace AheadOfTime.Utility

/-- A part of a pattern: which bytes it stands for, and whether any number of them. -/
structure Part where
  holds : Char → Bool
  isRepeated : Bool

/-- A pattern, and the ends of a line at which it has to stand. -/
structure Matcher where
  atStart : Bool
  atEnd : Bool
  parts : List Part

namespace Matcher

/-- The set that stands in brackets, and what follows it. -/
def brackets (text : List Char) : (Char → Bool) × List Char :=
  let (isNegated, inner) := match text with
    | '^' :: rest => (true, rest)
    | rest => (false, rest)
  let body := inner.takeWhile (· ≠ ']')
  let bytes := byteList body.length body
  (fun c => bytes.contains c != isNegated, inner.drop (body.length + 1))

/-- The parts of a pattern, of which at most `n` are read, and whether it ends with an
    end of a line. -/
def read : Nat → List Char → List Part × Bool
  | 0, _ => ([], false)
  | _, [] => ([], false)
  | _, ['$'] => ([], true)
  | n + 1, c :: rest =>
    let (holds, rest) : (Char → Bool) × List Char :=
      match c, rest with
      | '.', rest => (fun _ => true, rest)
      | '[', rest => brackets rest
      | '\\', d :: rest => (fun e => e = d, rest)
      | c, rest => (fun e => e = c, rest)
    let isRepeated := rest.head? = some '*'
    let (later, atEnd) := read n (if isRepeated then rest.drop 1 else rest)
    (⟨holds, isRepeated⟩ :: later, atEnd)

/-- The pattern that a text writes. -/
def ofText (text : Octets) : Matcher :=
  let atStart := text.startsWith "^"
  let (parts, atEnd) := read text.length (text.toList.drop (if atStart then 1 else 0))
  ⟨atStart, atEnd, parts⟩

/-- The number of bytes at the start of a text that some parts fit, as many as possible
    for every part in turn. -/
def length? (atEnd : Bool) : List Part → List Char → Option Nat
  | [], text => if atEnd && !text.isEmpty then none else some 0
  | ⟨holds, false⟩ :: later, c :: text =>
    if holds c then (length? atEnd later text).map (· + 1) else none
  | ⟨_, false⟩ :: _, [] => none
  | ⟨holds, true⟩ :: later, text => longest holds later text
where
  /-- The same for a part with a star: one byte more is tried first. -/
  longest (holds : Char → Bool) (later : List Part) : List Char → Option Nat
    | [] => length? atEnd later []
    | c :: text =>
      ((if holds c then longest holds later text else none).map (· + 1)).or
        (length? atEnd later (c :: text))

/-- The first place from a number on at which a text fits, and how many bytes. -/
def find? (m : Matcher) (start : Nat) (text : List Char) : Option (Nat × Nat) :=
  match length? m.atEnd m.parts text, text with
  | some n, _ => some (start, n)
  | none, [] => none
  | none, _ :: rest => if m.atStart then none else find? m (start + 1) rest

/-- Whether a line fits. -/
def fits (m : Matcher) (line : Octets) : Bool := (m.find? 0 line.toList).isSome

end Matcher

/-- Prints the lines of files that fit a pattern, or with `-v` the others; with `-c`
    only their number. -/
def grep (arguments : List Octets) : Utility Unit := do
  let found ← readOptions "cv" arguments
  let m := Matcher.ofText (found.operands.headD "")
  let files := inputs (found.operands.drop 1)
  setStatus 1
  eachInput files fun file text => do
    let label := if 1 < files.length then file ++ ":" else ""
    let lines := (linesOf text).filter fun line => m.fits line != found.has 'v'
    unless lines.isEmpty do setStatus 0
    if found.has 'c' then printLine (label ++ toString lines.length)
    else for line in lines do printLine (label ++ line)

/-- A substitution: what is looked for, what is put in its place, and the letters behind
    it. -/
structure Substitution where
  pattern : Matcher
  replacement : List Char
  flags : List Char

/-- Reads a substitution. -/
def Substitution.ofText? (text : Octets) : Option Substitution :=
  match text.toList with
  | 's' :: separator :: _ => match (text.drop 2).toString.splitOn (String.singleton separator) with
    | [pattern, replacement, flags] =>
      some ⟨.ofText pattern, replacement.toList, flags.toList⟩
    | _ => none
  | _ => none

/-- A line with a substitution made, if there was anything to replace. -/
def Substitution.apply? (s : Substitution) (line : Octets) : Option Octets :=
  let text := line.toList
  (s.pattern.find? 0 text).map fun (start, count) =>
    let taken := (text.drop start).take count
    String.ofList (text.take start ++
      (s.replacement.flatMap fun c => if c = '&' then taken else [c]) ++ text.drop (start + count))

/-- Makes a substitution in every line; with `-n` only those lines are printed that it
    asks for. -/
def sed (arguments : List Octets) : Utility Unit := do
  let found ← readOptions "n" arguments
  let script := found.operands.headD ""
  match Substitution.ofText? script with
  | none => fail ("-e expression #1, char 1: unknown command: " ++ quoted (script.take 1).toString)
  | some s =>
    eachInput (inputs (found.operands.drop 1)) fun _ text => do
      for line in linesOf text do
        let changed := s.apply? line
        if changed.isSome && s.flags.contains 'p' then printLine (changed.getD line)
        unless found.has 'n' do printLine (changed.getD line)

end AheadOfTime.Utility
