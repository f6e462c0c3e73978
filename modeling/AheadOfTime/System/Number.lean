/-! # Written numbers

    How texts write whole numbers: in decimal, in octal after a zero, or in hexadecimal,
    perhaps with blanks and a sign in front.  Numbers have 64 bits; what lies beyond
    them is cut off at the last number that fits. -/

namespace AheadOfTime.Number

/-- The value of a digit, up to 15. -/
def digitValue? (c : Char) : Option Nat :=
  if c.isDigit then some (c.toNat - '0'.toNat)
  else if 'a' ≤ c.toLower ∧ c.toLower ≤ 'f' then some (c.toLower.toNat - 'a'.toNat + 10)
  else none

/-- Whether `c` is a digit of a base. -/
def isDigitOf (base : Nat) (c : Char) : Bool := (digitValue? c).any fun d => decide (d < base)

/-- The number that digits write; what is no digit counts as zero. -/
def ofDigits (base : Nat) (digits : List Char) : Nat :=
  digits.foldl (fun n c => base * n + (digitValue? c).getD 0) 0

/-- The number that a text of decimal digits writes. -/
def decimal? (text : List Char) : Option Nat :=
  if !text.isEmpty && text.all Char.isDigit then some (ofDigits 10 text) else none

/-- A base with the digits at the start of a text that are read in it, and what follows them. -/
def leadingDigits (text : List Char) : Nat × List Char × List Char :=
  let digitsOf (base : Nat) (text : List Char) :=
    (base, text.takeWhile (isDigitOf base), text.dropWhile (isDigitOf base))
  match text with
  | '0' :: x :: c :: rest =>
    if (x = 'x' ∨ x = 'X') ∧ isDigitOf 16 c = true then digitsOf 16 (c :: rest)
    else digitsOf 8 text
  | '0' :: _ => digitsOf 8 text
  | _ => digitsOf 10 text

/-- The natural number at the start of a text, and what follows it. -/
def leadingNatural? (text : List Char) : Option (Nat × List Char) :=
  match leadingDigits text with
  | (_, [], _) => none
  | (base, digits, rest) => some (ofDigits base digits, rest)

/-- Whether `c` is a blank in front of or behind a number. -/
def isBlank (c : Char) : Bool := " \t\n\x0b\x0c\r".toList.contains c

/-- The whole number at the start of a text, after blanks, and what follows it. -/
def leadingInteger? (text : List Char) : Option (Int × List Char) :=
  match text.dropWhile isBlank with
  | '-' :: digits => (leadingNatural? digits).map fun (n, rest) => (-(n : Int), rest)
  | '+' :: digits | digits => (leadingNatural? digits).map fun (n, rest) => ((n : Int), rest)

/-- The greatest number of 64 bits with a sign. -/
def greatest : Int := Int.pow 2 63 - 1

/-- The least number of 64 bits with a sign. -/
def least : Int := -Int.pow 2 63

/-- Whether a number fits into 64 bits with a sign. -/
def fits (n : Int) : Bool := decide (least ≤ n ∧ n ≤ greatest)

/-- The nearest number that fits into 64 bits with a sign. -/
def clamp (n : Int) : Int := max least (min greatest n)

/-- The whole number that a text writes, with nothing but blanks around it. -/
def integer? (text : List Char) : Option Int :=
  match leadingInteger? text with
  | some (n, rest) => if fits n && rest.all isBlank then some n else none
  | none => none

/-- The whole number that a text writes in base ten, with nothing but blanks around it. -/
def decimalInteger? (text : List Char) : Option Int :=
  let (isNegative, body) := match text.dropWhile isBlank with
    | '-' :: body => (true, body)
    | '+' :: body | body => (false, body)
  let digits := body.takeWhile Char.isDigit
  let n : Int := ofDigits 10 digits
  let n := if isNegative then -n else n
  if !digits.isEmpty && (body.drop digits.length).all isBlank && fits n then some n else none

/-- A number of 64 bits, as one with a sign. -/
def wrap (n : Int) : Int := Int.bmod n (Nat.pow 2 64)

/-- The bits of a number of 64 bits. -/
def bits (n : Int) : Nat := (n % Int.pow 2 64).toNat

end AheadOfTime.Number
