import AheadOfTime.System.Image
import AheadOfTime.System.Number
import AheadOfTime.System.Utility.Basic

/-! # Printing, deciding, and programs in another environment

    Utilities that print their arguments or the working directory, that take paths apart,
    that tell by their status whether a condition holds, that run a program with other
    variables, or that let time go by. -/

namespace AheadOfTime.Utility

namespace Echo

/-- The digits of a base at the start of a text, at most so many, with the byte that
    they write. -/
def byteOf (base count : Nat) (text : List Char) : Char × List Char :=
  let digits := (text.take count).takeWhile (Number.isDigitOf base)
  (Char.ofNat (Number.ofDigits base digits % 256), text.drop digits.length)

/-- The letters of escapes, and what they stand for. -/
def letters : List (Char × Char) :=
  [('\\', '\\'), ('a', '\x07'), ('b', '\x08'), ('e', '\x1b'), ('f', '\x0c'), ('n', '\n'),
    ('r', '\r'), ('t', '\t'), ('v', '\x0b')]

/-- A text of at most the given length with its escapes replaced, and whether the output
    ends with it. -/
def unescape : Nat → List Char → List Char × Bool
  | 0, text => (text, false)
  | _, [] => ([], false)
  | _, '\\' :: 'c' :: _ => ([], true)
  | n + 1, '\\' :: c :: rest =>
    let (bytes, rest) : List Char × List Char :=
      match letters.lookup c with
      | some byte => ([byte], rest)
      | none =>
        if c = '0' then let (byte, rest) := byteOf 8 3 rest; ([byte], rest)
        else if c = 'x' ∧ rest.head?.any (Number.isDigitOf 16) then
          let (byte, rest) := byteOf 16 2 rest
          ([byte], rest)
        else (['\\', c], rest)
    let (later, ends) := unescape n rest
    (bytes ++ later, ends)
  | n + 1, c :: rest =>
    let (later, ends) := unescape n rest
    (c :: later, ends)

end Echo

/-- Prints its arguments; with `-n` no end of line follows, and with `-e` escapes are
    replaced. -/
def echo (arguments : List Octets) : Utility Unit := do
  let options := arguments.takeWhile fun text => ["-n", "-e", "-ne", "-en"].contains text
  let text := (String.intercalate " " (arguments.drop options.length)).toList
  let has (letter : Char) : Bool := options.any (·.contains letter)
  let (body, ends) := if has 'e' then Echo.unescape text.length text else (text, false)
  print (String.ofList (if has 'n' || ends then body else body ++ ['\n']))

/-- Prints the working directory: with `-L` the path that the environment names, if it
    leads there. -/
def pwd (arguments : List Octets) : Utility Unit := do
  let found ← readOptions "LP" arguments
  let named := ((← get).environment.find? (·.startsWith "PWD=")).map fun text =>
    (text.drop 4).toString
  let isRight ← match found.options.getLast?, named with
    | some ('L', _), some path => do
      match ← statusAt path true, ← statusAt "." true with
      | .ok there, .ok here => pure (path.startsWith "/" && there.inode == here.inode)
      | _, _ => pure false
    | _, _ => pure false
  if isRight then printLine (named.getD "")
  else match ← ask .workingDirectory with
    | .ok path => printLine path
    | .error reason => fail ("couldn't find directory entry: " ++ reason.text)

/-! ## Paths -/

namespace Name

/-- A path without the slashes at its end; the root keeps one. -/
def withoutSlashes (path : Octets) : Octets :=
  let body := (path.toList.reverse.dropWhile (· = '/')).reverse
  if body.isEmpty && path ≠ "" then "/" else String.ofList body

/-- The last name of a path. -/
def last (path : Octets) : Octets :=
  let path := withoutSlashes path
  if path = "/" then "/"
  else String.ofList (path.toList.reverse.takeWhile (· ≠ '/')).reverse

/-- The directory that a path names its last name in. -/
def directory (path : Octets) : Octets :=
  let body := withoutSlashes path
  if body = "/" then "/"
  else
    let rest := (body.toList.reverse.dropWhile (· ≠ '/')).reverse
    if rest.isEmpty then "." else withoutSlashes (String.ofList rest)

/-- A name without an ending, unless there is nothing else. -/
def withoutEnding (ending name : Octets) : Octets :=
  if name ≠ ending && name.endsWith ending then
    (name.take (name.length - ending.length)).toString else name

/-- A path followed by a name. -/
def below (directory name : Octets) : Octets :=
  if directory.endsWith "/" then directory ++ name else directory ++ "/" ++ name

end Name

/-- Prints the last name of a path, without an ending if one is given. -/
def basename (arguments : List Octets) : Utility Unit := do
  let found ← readOptions "" arguments
  match found.operands with
  | [] => failMissing
  | path :: endings => printLine (Name.withoutEnding (endings.headD "") (Name.last path))

/-- Prints the directories of paths. -/
def dirname (arguments : List Octets) : Utility Unit := do
  let found ← readOptions "" arguments
  if found.operands.isEmpty then failMissing
  for path in found.operands do
    printLine (Name.directory path)

/-! ## Conditions -/

/-- Ends with success, whatever the arguments. -/
def succeed (_ : List Octets) : Utility Unit := return

/-- Ends without success, whatever the arguments. -/
def refuse (_ : List Octets) : Utility Unit := setStatus 1

/-- Decides whether a text is there, or compares two texts. -/
def test (arguments : List Octets) : Utility Unit := do
  let holds : Bool ← match arguments with
    | [] => pure false
    | [word] => pure (word ≠ "")
    | ["-n", word] => pure (word ≠ "")
    | ["-z", word] => pure (word = "")
    | [left, sign, right] =>
      if sign = "=" ∨ sign = "==" then pure (left == right)
      else if sign = "!=" then pure (left != right)
      else fail (shown sign ++ ": binary operator expected") 2
    | _ => fail ("extra argument " ++ shown (arguments.getLastD "")) 2
  setStatus (if holds then 0 else 1)

end AheadOfTime.Utility

namespace AheadOfTime.Utility

/-- Goes on as the program that is found along the search path.  If there is an answer,
    no program could be run. -/
def become (argv environment : List Octets) : Utility Unit := do
  flush
  let searchPath := (environment.find? (·.startsWith "PATH=")).map fun text =>
    (text.drop 5).toString
  let rec try_ (reason : Refusal) : List Octets → Utility Refusal
    | [] => return reason
    | path :: later => do
      let other : Refusal ← ask (.execute path argv environment)
      if Image.isAbsence other then try_ reason later else return other
  let reason ← try_ .noEntry (Image.candidates (searchPath.getD "/bin:/usr/bin") (argv.headD ""))
  complain (shown (argv.headD "") ++ ": " ++ reason.text)
  exit (if reason = .noEntry then 127 else 126)

/-- The environment with a variable taken away. -/
def without (name : Octets) (environment : List Octets) : List Octets :=
  environment.filter fun text => !text.startsWith (name ++ "=")

/-- The arguments of `env`, of which the one behind `-S` is split at its blanks. -/
def splitWords : List Octets → List Octets
  | "-S" :: text :: rest => (text.splitOn " ").filter (· ≠ "") ++ rest
  | argument :: rest =>
    if argument.startsWith "-S" then
      ((argument.drop 2).toString.splitOn " ").filter (· ≠ "") ++ rest
    else argument :: rest
  | [] => []

/-- Prints the environment or runs a program in a changed one. -/
def env (arguments : List Octets) : Utility Unit := do
  let found ← readOptions "iu:" (splitWords arguments) true
  let inherited := (← get).environment
  let start := if found.has 'i' then [] else inherited
  let start := found.options.foldl (fun environment (letter, name) =>
    if letter = 'u' then without name environment else environment) start
  let assignments := found.operands.takeWhile (·.contains '=')
  let environment := assignments.foldl (fun environment text =>
    without (text.takeWhile (· ≠ '=')).toString environment ++ [text]) start
  match found.operands.drop assignments.length with
  | [] => for text in environment do printLine text
  | command => become command environment

/-- The microseconds that a decimal fraction of seconds writes. -/
def duration? (text : Octets) : Option Nat :=
  match text.splitOn "." with
  | [whole] => (Number.decimal? whole.toList).map (· * 1000000)
  | [whole, part] =>
    if (whole ++ part).all Char.isDigit && whole ++ part ≠ "" then
      some (Number.ofDigits 10 (whole ++ part).toList * 1000000 / Nat.pow 10 part.length)
    else none
  | _ => none

/-- Sleeps for some seconds. -/
def sleep (arguments : List Octets) : Utility Unit := do
  match arguments with
  | [] => failMissing
  | text :: _ => match duration? text with
    | some n => discard (ask (.sleep n))
    | none => failUse ("invalid time interval " ++ shown text)

end AheadOfTime.Utility
