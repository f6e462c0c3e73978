/-! # Cutting texts

    Cutting a list at every occurrence of a separator: there is always one piece more than
    there are separators, so the pieces and the separator give the list back.

    White space is meant in the wide sense: the blanks, tabs and line ends of ASCII, its
    four separators `\x1c` to `\x1f`, and the spaces and line separators of Unicode.  A
    zero-width space is no blank.

    A line ends at a line feed, a carriage return, the two together, a vertical tab, a form
    feed, one of the separators `\x1c`, `\x1d`, `\x1e`, the control `U+0085`, or one of the
    separators `U+2028` and `U+2029`.  A text that ends with a line end has no empty line
    after it. -/

namespace AheadOfTime.Text

/-- Puts `a` in front of the first piece. -/
def consPiece (a : α) : List (List α) → List (List α)
  | [] => [[a]]
  | piece :: later => (a :: piece) :: later

/-- The pieces between the separators, empty ones included. -/
def splitAt [DecidableEq α] (separator : α) : List α → List (List α)
  | [] => [[]]
  | a :: rest =>
    if a = separator then [] :: splitAt separator rest
    else consPiece a (splitAt separator rest)

theorem splitAt_ne_nil [DecidableEq α] (separator : α) (l : List α) :
    splitAt separator l ≠ [] := by
  cases l with
  | nil => simp [splitAt]
  | cons a rest =>
    unfold splitAt
    split
    · simp
    · cases splitAt separator rest <;> simp [consPiece]

/-- The pieces of a text between the separators. -/
def pieces (separator : Char) (s : String) : List String :=
  (splitAt separator s.toList).map String.ofList

/-- Whether `c` is white space. -/
def isBlank (c : Char) : Bool :=
  let n := c.toNat
  (9 ≤ n && n ≤ 13) || (28 ≤ n && n ≤ 32) || n == 0x85 || n == 0xA0 || n == 0x1680 ||
    (0x2000 ≤ n && n ≤ 0x200A) || n == 0x2028 || n == 0x2029 || n == 0x202F || n == 0x205F ||
    n == 0x3000

/-- Drops the elements at the end for which `p` holds. -/
def dropEndWhile (p : α → Bool) (l : List α) : List α := (l.reverse.dropWhile p).reverse

/-- Removes white space from both ends. -/
def strip (cs : List Char) : List Char := dropEndWhile isBlank (cs.dropWhile isBlank)

/-- The characters that end a line. -/
def isLineEnd (c : Char) : Bool :=
  let n := c.toNat
  (10 ≤ n && n ≤ 13) || (28 ≤ n && n ≤ 30) || n == 0x85 || n == 0x2028 || n == 0x2029

/-- Puts `c` in front of the first line. -/
def consLine (c : Char) : List (List Char) → List (List Char)
  | [] => [[c]]
  | line :: later => (c :: line) :: later

/-- The lines of a text, without their ends. -/
def lines : List Char → List (List Char)
  | [] => []
  | '\r' :: '\n' :: rest => [] :: lines rest
  | c :: rest => if isLineEnd c then [] :: lines rest else consLine c (lines rest)

/-- Writes every carriage return, alone or before a line feed, as a line feed. -/
def unifyNewlines : List Char → List Char
  | [] => []
  | '\r' :: '\n' :: rest => '\n' :: unifyNewlines rest
  | c :: rest => (if c = '\r' then '\n' else c) :: unifyNewlines rest

end AheadOfTime.Text
