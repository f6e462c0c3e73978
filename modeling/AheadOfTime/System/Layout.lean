import AheadOfTime.System.Number

/-! # Laid-out values

    A directive says how a value is written: flags, the least width, a number of digits,
    and a letter.  Texts, whole numbers and floating-point numbers are brought into that
    form.

    A floating-point number has a sign, a whole coefficient and a power of two, as
    machines keep them.  Both the reading of the nearest one to a written number and the
    writing of one with a given number of places are exact up to one rounding to the
    nearest, which goes to the even neighbour if there are two. -/

namespace AheadOfTime

/-- The finite floating-point number `coefficient * 2 ^ exponent`, or its negative. -/
structure Floating where
  isNegative : Bool := false
  coefficient : Nat := 0
  exponent : Int := 0
  deriving DecidableEq, Repr

namespace Floating

/-- How many bits coefficients have. -/
def bits : Nat := 53

/-- The quotient of two numbers, rounded to the nearest whole one. -/
def roundDiv (numerator denominator : Nat) : Nat :=
  let quotient := numerator / denominator
  let rest := 2 * (numerator % denominator)
  if denominator < rest ∨ rest = denominator ∧ quotient % 2 = 1 then quotient + 1 else quotient

/-- The quotient of two numbers and a power of a base, rounded to the nearest whole one. -/
def roundScaled (numerator denominator base : Nat) (exponent : Int) : Nat :=
  if 0 ≤ exponent then roundDiv numerator (denominator * Nat.pow base exponent.toNat)
  else roundDiv (numerator * Nat.pow base (-exponent).toNat) denominator

/-- The number that is nearest to a quotient. -/
def ofQuotient (isNegative : Bool) (numerator denominator : Nat) : Floating :=
  if numerator = 0 then { isNegative }
  else
    let size : Int := (Nat.log2 numerator : Int) - Nat.log2 denominator
    -- The quotient is at least a half of `2 ^ size` and less than `2 ^ (size + 1)`.
    let isSmall :=
      if 0 ≤ size then numerator < denominator * Nat.pow 2 size.toNat
      else numerator * Nat.pow 2 (-size).toNat < denominator
    let exponent := (if isSmall then size - 1 else size) - bits + 1
    { isNegative, coefficient := roundScaled numerator denominator 2 exponent, exponent }

/-- The greatest power of ten that is read. -/
def powerLimit : Nat := 400

/-- The power of ten at the start of a text, and what follows it. -/
def power (text : List Char) : Int × List Char :=
  match text with
  | c :: rest =>
    let (isNegative, digits) := match rest with
      | '-' :: digits => (true, digits)
      | '+' :: digits => (false, digits)
      | digits => (false, digits)
    let shown := digits.takeWhile Char.isDigit
    if c.toLower ≠ 'e' ∨ shown = [] then (0, text)
    else
      let n : Int := min (Number.ofDigits 10 shown) powerLimit
      (if isNegative then -n else n, digits.drop shown.length)
  | [] => (0, [])

/-- The number at the start of a text, after blanks, and what follows it. -/
def leading? (text : List Char) : Option (Floating × List Char) :=
  let text := text.dropWhile Number.isBlank
  let (isNegative, text) := match text with
    | '-' :: rest => (true, rest)
    | '+' :: rest => (false, rest)
    | rest => (false, rest)
  let whole := text.takeWhile Char.isDigit
  let (places, rest) := match text.drop whole.length with
    | '.' :: rest => (rest.takeWhile Char.isDigit, rest.dropWhile Char.isDigit)
    | rest => ([], rest)
  if whole = [] ∧ places = [] then none
  else
    let (e, rest) := power rest
    let n := Number.ofDigits 10 (whole ++ places)
    let scale := Nat.pow 10 places.length
    some (if 0 ≤ e then ofQuotient isNegative (n * Nat.pow 10 e.toNat) scale
      else ofQuotient isNegative n (scale * Nat.pow 10 (-e).toNat), rest)

/-- Digits with a point in front of the last `places` of them. -/
def withPoint (places : Nat) (digits : List Char) : List Char :=
  let digits := List.replicate (places + 1 - digits.length) '0' ++ digits
  let whole := digits.take (digits.length - places)
  let rest := digits.drop (digits.length - places)
  if rest = [] then whole else whole ++ '.' :: rest

/-- The digits of a number in base ten. -/
def decimal (n : Nat) : List Char := (toString n).toList

/-- The magnitude of a number as a quotient. -/
def quotient (x : Floating) : Nat × Nat :=
  if 0 ≤ x.exponent then (x.coefficient * Nat.pow 2 x.exponent.toNat, 1)
  else (x.coefficient, Nat.pow 2 (-x.exponent).toNat)

/-- The magnitude of a number with a number of places behind the point. -/
def fixed (places : Nat) (x : Floating) : List Char :=
  let (numerator, denominator) := x.quotient
  withPoint places (decimal (roundDiv (numerator * Nat.pow 10 places) denominator))

/-- Whether a quotient is at least a power of ten. -/
def reaches (numerator denominator : Nat) (e : Int) : Bool :=
  if 0 ≤ e then denominator * Nat.pow 10 e.toNat ≤ numerator
  else denominator ≤ numerator * Nat.pow 10 (-e).toNat

/-- The significant digits of a number, as many as are asked for, and the power of ten
    of the first one. -/
def significant (count : Nat) (x : Floating) : List Char × Int :=
  if x.coefficient = 0 then (List.replicate count '0', 0)
  else
    let (numerator, denominator) := x.quotient
    let guess : Int := (((Nat.log2 x.coefficient : Int) + x.exponent) * 30103).fdiv 100000 + 1
    -- The guess is one or two too great, never too small.
    let e := if reaches numerator denominator guess then guess
      else if reaches numerator denominator (guess - 1) then guess - 1 else guess - 2
    let n := roundScaled numerator denominator 10 (e - count + 1)
    if n = Nat.pow 10 count then (decimal (n / 10), e + 1) else (decimal n, e)

/-- A power of ten as it is written: with its sign and two digits at least. -/
def shownPower (e : Int) : List Char :=
  let digits := decimal e.natAbs
  'e' :: (if e < 0 then '-' else '+') :: (List.replicate (2 - digits.length) '0' ++ digits)

/-- The magnitude of a number with one digit in front of the point and a power of ten. -/
def scientific (places : Nat) (x : Floating) : List Char :=
  let (digits, e) := x.significant (places + 1)
  withPoint places digits ++ shownPower e

/-- A text without the zeros, and then the point, that its places end in. -/
def withoutTrailingZeros (text : List Char) : List Char :=
  if text.contains '.' then
    let kept := text.reverse.dropWhile (· = '0')
    (if kept.head? = some '.' then kept.drop 1 else kept).reverse
  else text

/-- The magnitude of a number with that many significant digits, in whichever of the two
    ways is shorter. -/
def general (count : Nat) (x : Floating) : List Char :=
  let count := max count 1
  let (digits, e) := x.significant count
  if -4 ≤ e ∧ e < count then withoutTrailingZeros (x.fixed (count - 1 - e).toNat)
  else withoutTrailingZeros (withPoint (count - 1) digits) ++ shownPower e

/-- The magnitude of a number in the way that a letter asks for. -/
def shown (letter : Char) (places : Nat) (x : Floating) : List Char :=
  match letter with
  | 'f' => x.fixed places
  | 'e' => x.scientific places
  | _ => x.general places

end Floating

/-- How a value is laid out. -/
structure Layout where
  flags : List Char := []
  width : Nat := 0
  digits : Option Nat := none
  deriving DecidableEq, Repr

namespace Layout

/-- Whether a flag is set. -/
def has (l : Layout) (flag : Char) : Bool := l.flags.contains flag

/-- A text in its width. -/
def pad (l : Layout) (text : List Char) : List Char :=
  let missing := l.width - text.length
  if l.has '-' then text ++ List.replicate missing ' ' else List.replicate missing ' ' ++ text

/-- A text, of which only as many characters count as digits are asked for. -/
def text (l : Layout) (text : List Char) : List Char := l.pad ((l.digits.map text.take).getD text)

/-- A sign and digits in their width, with zeros in between if they are asked for. -/
def signed (l : Layout) (fills : Bool) (sign digits : List Char) : List Char :=
  if fills && l.has '0' && !l.has '-' then
    sign ++ List.replicate (l.width - sign.length - digits.length) '0' ++ digits
  else l.pad (sign ++ digits)

/-- A whole number from its sign and its digits; with no digits asked for, zero has none. -/
def number (l : Layout) (sign digits : List Char) : List Char :=
  let digits := if l.digits = some 0 ∧ digits = ['0'] then [] else digits
  let digits := List.replicate (l.digits.getD 1 - digits.length) '0' ++ digits
  l.signed l.digits.isNone sign digits

/-- The sign of a number. -/
def sign (l : Layout) (isNegative : Bool) : List Char :=
  if isNegative then ['-'] else if l.has '+' then ['+'] else if l.has ' ' then [' '] else []

/-- A whole number in base ten. -/
def decimal (l : Layout) (n : Int) : List Char :=
  l.number (l.sign (n < 0)) (toString n.natAbs).toList

/-- A natural number in the base of a letter. -/
def unsigned (l : Layout) (letter : Char) (n : Nat) : List Char :=
  match letter with
  | 'o' =>
    let digits := Nat.toDigits 8 n
    let isShort := l.digits.all (· ≤ digits.length)
    l.number [] (if l.has '#' && isShort && digits.head? ≠ some '0' then '0' :: digits else digits)
  | 'x' | 'X' =>
    let start := if l.has '#' && n ≠ 0 then ['0', letter] else []
    let digits := Nat.toDigits 16 n
    l.number start (if letter = 'X' then digits.map Char.toUpper else digits)
  | _ => l.number [] (toString n).toList

/-- A floating-point number. -/
def floating (l : Layout) (letter : Char) (x : Floating) : List Char :=
  l.signed true (l.sign x.isNegative) (x.shown letter (l.digits.getD 6))

end Layout

end AheadOfTime
