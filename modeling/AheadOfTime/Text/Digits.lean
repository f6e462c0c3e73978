import AheadOfTime.Text.Split

/-! # Numerals

    Writing numbers with a fixed count of digits, and reading whole numbers as a person may
    write them: an optional sign, digits of any script, and single underscores between
    digits, with white space around.

    Every script with a positional decimal notation has its ten digits in a row, zero
    first, so the zeros alone fix the value of each digit. -/

namespace AheadOfTime.Text

/-- The zero of every run of ten decimal digits, ascending. -/
def digitZeros : List Nat := [
    0x30, 0x660, 0x6F0, 0x7C0, 0x966, 0x9E6, 0xA66, 0xAE6, 0xB66, 0xBE6, 0xC66, 0xCE6, 0xD66,
    0xDE6, 0xE50, 0xED0, 0xF20, 0x1040, 0x1090, 0x17E0, 0x1810, 0x1946, 0x19D0, 0x1A80, 0x1A90,
    0x1B50, 0x1BB0, 0x1C40, 0x1C50, 0xA620, 0xA8D0, 0xA900, 0xA9D0, 0xA9F0, 0xAA50, 0xABF0,
    0xFF10, 0x104A0, 0x10D30, 0x11066, 0x110F0, 0x11136, 0x111D0, 0x112F0, 0x11450, 0x114D0,
    0x11650, 0x116C0, 0x11730, 0x118E0, 0x11950, 0x11C50, 0x11D50, 0x11DA0, 0x16A60, 0x16AC0,
    0x16B50, 0x1D7CE, 0x1D7D8, 0x1D7E2, 0x1D7EC, 0x1D7F6, 0x1E140, 0x1E2F0, 0x1E950, 0x1FBF0]

/-- The value of a decimal digit of any script. -/
def digitValue? (c : Char) : Option Nat :=
  (digitZeros.find? fun z => decide (z ≤ c.toNat ∧ c.toNat < z + 10)).map (c.toNat - ·)

/-- Fills up with zeros in front to at least `width` digits. -/
def zeroFill (width : Nat) (digits : List Char) : List Char :=
  List.replicate (width - digits.length) '0' ++ digits

/-- The hexadecimal numeral of `n` in lower case, at least `width` digits long. -/
def hex (width n : Nat) : String := String.ofList (zeroFill width (Nat.toDigits 16 n))

/-- The octal numeral of `n`, at least `width` digits long. -/
def octal (width n : Nat) : List Char := zeroFill width (Nat.toDigits 8 n)

/-- The digits of a numeral in which single underscores may stand between two digits. -/
def groupedDigits? : List Char → Option (List Nat)
  | [] => none
  | [c] => (digitValue? c).map ([·])
  | c :: '_' :: rest => do
    let d ← digitValue? c
    let ds ← groupedDigits? rest
    return d :: ds
  | c :: rest => do
    let d ← digitValue? c
    let ds ← groupedDigits? rest
    return d :: ds

/-- The most digits a numeral may have. -/
def numeralLimit : Nat := 4300

/-- The value of a numeral without sign. -/
def natural? (cs : List Char) : Option Nat := do
  let ds ← groupedDigits? cs
  if ds.length ≤ numeralLimit then some (ds.foldl (fun n d => 10 * n + d) 0) else none

/-- The blanks that may surround a numeral: all but the four separators of ASCII. -/
def isNumeralBlank (c : Char) : Bool := isBlank c && !(28 ≤ c.toNat && c.toNat ≤ 31)

/-- The whole number that `s` writes. -/
def integer? (s : String) : Option Int :=
  match dropEndWhile isNumeralBlank (s.toList.dropWhile isNumeralBlank) with
  | '-' :: digits => (natural? digits).map fun n => -(n : Int)
  | '+' :: digits => (natural? digits).map Int.ofNat
  | digits => (natural? digits).map Int.ofNat

end AheadOfTime.Text
