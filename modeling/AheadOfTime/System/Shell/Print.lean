import AheadOfTime.System.Shell.Syntax
import AheadOfTime.System.Layout

/-! # Printing with formats

    What `echo` and `printf` print: texts with escapes, and directives that lay their
    arguments out. -/

namespace AheadOfTime.Shell.Print

/-- Whether `c` is an octal digit. -/
def isOctal (c : Char) : Bool := '0' ≤ c && c ≤ '7'

/-- The byte that octal digits write. -/
def octalByte (digits : List Char) : Char := Char.ofNat (Number.ofDigits 8 digits % 256)

/-- The byte a letter stands for after a backslash. -/
def escaped? : Char → Option Char
  | '\\' => some '\\'
  | 'a' => some '\x07'
  | 'b' => some '\x08'
  | 'e' => some '\x1b'
  | 'f' => some '\x0c'
  | 'n' => some '\n'
  | 'r' => some '\r'
  | 't' => some '\t'
  | 'v' => some '\x0b'
  | _ => none

/-- The escape after a backslash: its byte and the rest.  A backslash that starts no
    escape stands for itself. -/
def escape (text : List Char) : Char × List Char :=
  match text with
  | [] => ('\\', [])
  | c :: rest =>
    if isOctal c then
      let digits := ((c :: rest).take 3).takeWhile isOctal
      (octalByte digits, (c :: rest).drop digits.length)
    else match escaped? c with
      | some byte => (byte, rest)
      | none => ('\\', c :: rest)

/-- A text of at most the given length with its escapes replaced, and whether the output
    ends with it.  Here up to three octal digits follow a zero. -/
def unescape : Nat → List Char → List Char × Bool
  | 0, text => (text, false)
  | _, [] => ([], false)
  | _, '\\' :: 'c' :: _ => ([], true)
  | n + 1, '\\' :: '0' :: rest =>
    let digits := (rest.take 3).takeWhile isOctal
    let (later, ends) := unescape n (rest.drop digits.length)
    (octalByte digits :: later, ends)
  | n + 1, '\\' :: rest =>
    let (byte, rest) := escape rest
    let (later, ends) := unescape n rest
    (byte :: later, ends)
  | n + 1, c :: rest =>
    let (later, ends) := unescape n rest
    (c :: later, ends)

/-- The texts with a blank between any two. -/
def spaced (texts : List Octets) : Octets := String.intercalate " " texts

/-- What `echo` prints. -/
def echo (arguments : List Octets) : Octets :=
  let silent := arguments.head? == some "-n"
  let text := (spaced (if silent then arguments.drop 1 else arguments)).toList
  let (body, ends) := unescape text.length text
  String.ofList (if silent || ends then body else body ++ ['\n'])

/-- What `printf` has printed, last octets first, whether it ends here, its complaints,
    and whether the format is wrong. -/
structure Printed where
  text : List Char := []
  ends : Bool := false
  isWrong : Bool := false
  complaints : List Octets := []

namespace Printed

/-- The complaint about a number that is followed by something else, or out of range. -/
def complaintsAbout (argument : Octets) (rest : List Char) (isOut : Bool) : List Octets :=
  if !rest.isEmpty then [argument ++ ": not completely converted"]
  else if isOut then [argument ++ ": Numerical result out of range"] else []

end Printed

/-- The byte behind a quote, if the argument starts with one. -/
def quotedByte? (argument : Octets) : Option Nat :=
  match argument.toList with
  | ['\''] | ['"'] => some 0
  | quote :: c :: _ => if quote = '\'' ∨ quote = '"' then some c.toNat else none
  | _ => none

/-- The number an argument writes, brought between two bounds, with a complaint if it
    writes none or one beyond them.  After a quote it is the number of the byte that
    follows. -/
def numberOf (least greatest : Int) (argument : Octets) : Int × List Octets :=
  if argument = "" then (0, [])
  else match quotedByte? argument with
  | some n => (n, [])
  | none => match Number.leadingInteger? argument.toList with
    | none => (0, [argument ++ ": expected numeric value"])
    | some (n, rest) =>
      (max least (min greatest n),
        Printed.complaintsAbout argument rest (n < least || greatest < n))

/-- The number an argument writes, of 64 bits with a sign. -/
def signedNumberOf (argument : Octets) : Int × List Octets :=
  numberOf Number.least Number.greatest argument

/-- The number an argument writes, of 64 bits without a sign; a negative one stands for
    its bits. -/
def unsignedNumberOf (argument : Octets) : Nat × List Octets :=
  let (n, complaints) := numberOf (1 - Int.pow 2 64) (Int.pow 2 64 - 1) argument
  (Number.bits n, complaints)

/-- The floating-point number an argument writes. -/
def floatingOf (argument : Octets) : Floating × List Octets :=
  if argument = "" then ({}, [])
  else match quotedByte? argument with
  | some n => ({ coefficient := n }, [])
  | none => match Floating.leading? argument.toList with
    | none => ({}, [argument ++ ": expected numeric value"])
    | some (x, rest) => (x, Printed.complaintsAbout argument rest false)

/-- What one directive makes of its argument; nothing if there is no such directive. -/
def directive? (l : Layout) (letter : Char) (argument : Option Octets) : Option Printed :=
  let text := argument.getD ""
  match letter with
  | 's' => some { text := l.text text.toList }
  | 'c' => some { text := l.pad [text.toList.headD '\x00'] }
  | 'b' =>
    let (body, ends) := unescape text.length text.toList
    some { text := l.text body, ends }
  | 'd' | 'i' =>
    let (n, complaints) := signedNumberOf text
    some { text := l.decimal n, complaints }
  | 'u' | 'o' | 'x' | 'X' =>
    let (n, complaints) := unsignedNumberOf text
    some { text := l.unsigned letter n, complaints }
  | letter =>
    if "efg".contains letter then
      let (x, complaints) := floatingOf text
      some { text := l.floating letter x, complaints }
    else none

/-- A count in a directive, which a star takes from the arguments. -/
def count (format : List Char) (arguments : List Octets) :
    Option Int × List Char × List Octets :=
  match format with
  | '*' :: rest => (some (signedNumberOf (arguments.headD "")).1, rest, arguments.drop 1)
  | _ =>
    let digits := format.takeWhile Char.isDigit
    ((Number.decimal? digits).map Int.ofNat, format.drop digits.length, arguments)

/-- The layout at the start of a directive, after the percent sign. -/
def layout (format : List Char) (arguments : List Octets) : Layout × List Char × List Octets :=
  let flags := format.takeWhile "-+ #0".toList.contains
  let (width, format, arguments) := count (format.drop flags.length) arguments
  let width := width.getD 0
  let l : Layout :=
    { flags := if width < 0 then '-' :: flags else flags, width := width.natAbs }
  match format with
  | '.' :: rest =>
    let (digits, format, arguments) := count rest arguments
    let digits := digits.getD 0
    ({ l with digits := if digits < 0 then none else some digits.toNat }, format, arguments)
  | format => (l, format, arguments)

/-- What one pass over the format prints, and the arguments that are left. -/
def pass : Nat → List Char → List Octets → Printed → Printed × List Octets
  | 0, _, arguments, done => (done, arguments)
  | _, [], arguments, done => (done, arguments)
  | n + 1, '\\' :: rest, arguments, done =>
    let (byte, rest) := escape rest
    pass n rest arguments { done with text := byte :: done.text }
  | n + 1, '%' :: '%' :: rest, arguments, done =>
    pass n rest arguments { done with text := '%' :: done.text }
  | n + 1, '%' :: directive, arguments, done =>
    let (l, rest, arguments) := layout directive arguments
    let broken (complaint : Octets) : Printed :=
      { done with ends := true, isWrong := true, complaints := done.complaints ++ [complaint] }
    match rest with
    | [] => (broken "missing format character", arguments)
    | letter :: rest =>
      match directive? l letter arguments.head? with
      | none =>
        let text := String.ofList ('%' :: directive.take (directive.length - rest.length))
        (broken (text ++ ": invalid directive"), arguments)
      | some printed =>
        let done : Printed :=
          { text := printed.text.reverse ++ done.text
            ends := printed.ends
            complaints := done.complaints ++ printed.complaints }
        if printed.ends then (done, arguments) else pass n rest (arguments.drop 1) done
  | n + 1, c :: rest, arguments, done =>
    pass n rest arguments { done with text := c :: done.text }

/-- What a format prints, which is used again as long as it takes arguments. -/
def passes : Nat → List Char → List Octets → Printed → Printed
  | 0, _, _, done => done
  | n + 1, format, arguments, done =>
    let (done, left) := pass format.length format arguments done
    if done.ends || left.isEmpty || left.length == arguments.length then done
    else passes n format left done

/-- What `printf` prints. -/
def printf (format : Octets) (arguments : List Octets) : Printed :=
  let printed := passes (arguments.length + 1) format.toList arguments {}
  { printed with text := printed.text.reverse }

/-- A text as words that stand for it: in single quotes, apart from such quotes
    themselves, which are in double ones. -/
def quotedWord (text : Octets) : Octets := String.ofList (go text.length text.toList)
where
  /-- Quotes a text of at most that length. -/
  go : Nat → List Char → List Char
    | 0, text => '\'' :: text ++ ['\'']
    | n + 1, text =>
      let plain := text.takeWhile (· ≠ '\'')
      let rest := text.dropWhile (· ≠ '\'')
      let quotes := rest.takeWhile (· = '\'')
      let later := rest.dropWhile (· = '\'')
      '\'' :: plain ++ ['\''] ++ (if quotes.isEmpty then [] else '"' :: quotes ++ ['"']) ++
        (if later.isEmpty then [] else go n later)

end AheadOfTime.Shell.Print
