import AheadOfTime.Text.Utf8

/-! # Octets, and loops with a bound

    Programs work on bytes, whatever these mean.  A text of octets has one character for
    every byte, so it can be cut and compared like any other text; what it says to a
    reader is the text that its bytes write in UTF-8.

    A loop goes on from one value to the next until it has an answer.  Loops whose length
    no input bounds in advance are given a number of rounds that they never reach. -/

namespace AheadOfTime

/-- A text in which every character is one byte. -/
abbrev Octets := String

namespace Octets

/-- The octets for bytes. -/
def ofBytes (bytes : List UInt8) : Octets :=
  bytes.foldl (fun text b => text.push (Char.ofNat b.toNat)) ""

/-- The bytes of octets. -/
def toBytes (octets : Octets) : List UInt8 := octets.toList.map fun c => UInt8.ofNat c.toNat

/-- The octets that write a text. -/
def ofText (text : String) : Octets := ofBytes (Text.utf8Bytes text.toList)

/-- The text that octets write. -/
def toText (octets : Octets) : String := String.ofList (Text.decodeUtf8 (toBytes octets))

/-- The octets of a part of an array of bytes. -/
def ofArray (bytes : ByteArray) (start count : Nat) : Octets :=
  (bytes.extract start (start + count)).foldl (fun text b => text.push (Char.ofNat b.toNat)) ""

/-- The array of the bytes of octets. -/
def toArray (octets : Octets) : ByteArray :=
  octets.foldl (fun bytes c => bytes.push (UInt8.ofNat c.toNat)) ByteArray.empty

end Octets

end AheadOfTime

namespace AheadOfTime

/-- What a round of a loop comes to: the answer, or the value for the next round. -/
inductive Round (σ α : Type) where
  | again (value : σ)
  | done (answer : α)

/-- More rounds than any loop makes. -/
def roundLimit : Nat := Nat.pow 2 60

/-- Goes on for at most a number of rounds; there is no answer if they are not enough. -/
def repeatFor [Monad m] (round : σ → m (Round σ α)) : Nat → σ → m (Option α)
  | 0, _ => return none
  | n + 1, value => do
    match ← round value with
    | .done answer => return some answer
    | .again next => repeatFor round n next

/-- Goes on until there is an answer; `default` stands in for one that never comes. -/
def repeatUntil [Monad m] (default : α) (round : σ → m (Round σ α)) (start : σ) : m α := do
  return (← repeatFor round roundLimit start).getD default

end AheadOfTime
