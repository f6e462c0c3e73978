/-! # UTF-8

    Text as bytes and back.  Reading never fails: where the bytes are not UTF-8, each
    longest run that starts like a character but does not go on as one, and each byte
    that starts none, is read as the replacement character `U+FFFD`. -/

namespace AheadOfTime.Text

/-- The bytes of a text. -/
def utf8Bytes (cs : List Char) : List UInt8 := cs.flatMap String.utf8EncodeChar

/-- The character read for bytes that are not UTF-8. -/
def replacementChar : Char := Char.ofNat 0xFFFD

/-- A character whose first bytes have been read: the value so far, how many bytes are
    owed, and the least and greatest value of the next one. -/
structure Unfinished where
  value : Nat
  owed : Nat
  low : Nat
  high : Nat

/-- What a byte at the start of a character means: characters that are complete with it,
    and a character it begins. -/
def firstByte (b : Nat) : List Char × Option Unfinished :=
  if b < 0x80 then ([Char.ofNat b], none)
  else if 0xC2 ≤ b ∧ b ≤ 0xDF then ([], some ⟨b - 0xC0, 1, 0x80, 0xBF⟩)
  else if b = 0xE0 then ([], some ⟨0, 2, 0xA0, 0xBF⟩)
  else if b = 0xED then ([], some ⟨0xD, 2, 0x80, 0x9F⟩)
  else if 0xE1 ≤ b ∧ b ≤ 0xEF then ([], some ⟨b - 0xE0, 2, 0x80, 0xBF⟩)
  else if b = 0xF0 then ([], some ⟨0, 3, 0x90, 0xBF⟩)
  else if 0xF1 ≤ b ∧ b ≤ 0xF3 then ([], some ⟨b - 0xF0, 3, 0x80, 0xBF⟩)
  else if b = 0xF4 then ([], some ⟨4, 3, 0x80, 0x8F⟩)
  else ([replacementChar], none)

/-- What the next byte of a character means. -/
def nextByte (u : Unfinished) (b : Nat) : List Char × Option Unfinished :=
  if u.low ≤ b ∧ b ≤ u.high then
    let value := u.value * 64 + (b - 0x80)
    if u.owed = 1 then ([Char.ofNat value], none)
    else ([], some ⟨value, u.owed - 1, 0x80, 0xBF⟩)
  else
    let (complete, unfinished) := firstByte b
    (replacementChar :: complete, unfinished)

/-- Reads bytes in the middle of a character, if one is given. -/
def decodeFrom : Option Unfinished → List UInt8 → List Char
  | none, [] => []
  | some _, [] => [replacementChar]
  | state, b :: rest =>
    let (complete, unfinished) := match state with
      | none => firstByte b.toNat
      | some u => nextByte u b.toNat
    complete ++ decodeFrom unfinished rest

/-- Reads bytes as text. -/
def decodeUtf8 (bytes : List UInt8) : List Char := decodeFrom none bytes

end AheadOfTime.Text
