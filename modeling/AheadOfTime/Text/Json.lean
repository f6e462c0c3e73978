import AheadOfTime.Text.Digits

/-! # JSON texts

    A JSON value and its one-line text in ASCII: `", "` between elements, `": "` after a
    key, the keys of every object in ascending order, and every character outside
    printable ASCII as `\uhhhh`, in two halves when it lies beyond `U+FFFF`. -/

namespace AheadOfTime

/-- A JSON value.  Numbers are whole. -/
inductive Json where
  | null
  | bool (value : Bool)
  | num (value : Int)
  | str (value : String)
  | arr (elements : List Json)
  | obj (fields : List (String × Json))
  deriving Inhabited, BEq, Repr

namespace Json

/-- A 16-bit unit as an escape. -/
def unitEscape (n : Nat) : List Char := '\\' :: 'u' :: (Text.hex 4 n).toList

/-- One character inside a string. -/
def escapedChar (c : Char) : List Char :=
  let n := c.toNat
  if c = '"' then ['\\', '"']
  else if c = '\\' then ['\\', '\\']
  else if c = '\n' then ['\\', 'n']
  else if c = '\r' then ['\\', 'r']
  else if c = '\t' then ['\\', 't']
  else if n = 8 then ['\\', 'b']
  else if n = 12 then ['\\', 'f']
  else if 0x20 ≤ n ∧ n ≤ 0x7E then [c]
  else if n < 0x10000 then unitEscape n
  else unitEscape (0xD800 + (n - 0x10000) / 0x400) ++ unitEscape (0xDC00 + (n - 0x10000) % 0x400)

/-- The text of a string. -/
def renderString (s : String) : List Char :=
  '"' :: (s.toList.flatMap escapedChar ++ ['"'])

/-- Elements with `", "` between them. -/
def commaSeparated (elements : List (List Char)) : List Char :=
  [',', ' '].intercalate elements

/-- The text of a rendered field. -/
def renderField (field : String × List Char) : List Char :=
  renderString field.1 ++ ':' :: ' ' :: field.2

mutual

/-- The text of a value. -/
def render : Json → List Char
  | null => "null".toList
  | bool value => (if value then "true" else "false").toList
  | num value => (toString value).toList
  | str value => renderString value
  | arr elements => '[' :: (commaSeparated (renderElements elements) ++ [']'])
  | obj fields =>
    let sorted := (renderFields fields).mergeSort fun a b => decide (a.1 ≤ b.1)
    '{' :: (commaSeparated (sorted.map renderField) ++ ['}'])

/-- The texts of the elements of an array. -/
def renderElements : List Json → List (List Char)
  | [] => []
  | element :: later => render element :: renderElements later

/-- The texts of the values of an object, beside their keys. -/
def renderFields : List (String × Json) → List (String × List Char)
  | [] => []
  | (key, value) :: later => (key, render value) :: renderFields later

end

/-- The text of a value as a string. -/
def text (value : Json) : String := String.ofList value.render

end Json

end AheadOfTime
