import AheadOfTime.Text.CharSet
import AheadOfTime.Text.Digits

/-! # Texts between quotes

    How a text is shown inside a message: between single quotes, or between double quotes
    when it has a single quote and no double one.  The quote in use and the backslash get a
    backslash in front, tab, line feed and carriage return are written `\t`, `\n`, `\r`, and
    other characters without a visible form by their code point, as `\xhh`, `\uhhhh` or
    `\Uhhhhhhhh`.

    An argument vector is written as one line that a POSIX shell reads back as the same
    words.  A word of ASCII letters, digits and `_ @ % + = : , . - /` stands as it is; any
    other is put between single quotes, and a single quote inside becomes `'"'"'`: the quotes
    end, a quoted quote follows, they start again. -/

namespace AheadOfTime.Text

/-- A character by its code point. -/
def codePointEscape (n : Nat) : List Char :=
  if n ≤ 0xFF then '\\' :: 'x' :: (hex 2 n).toList
  else if n ≤ 0xFFFF then '\\' :: 'u' :: (hex 4 n).toList
  else '\\' :: 'U' :: (hex 8 n).toList

/-- One character of a text shown between `quote` marks. -/
def shownChar (quote c : Char) : List Char :=
  if c = quote ∨ c = '\\' then ['\\', c]
  else if c = '\t' then ['\\', 't']
  else if c = '\n' then ['\\', 'n']
  else if c = '\r' then ['\\', 'r']
  else if isPrintable c then [c]
  else codePointEscape c.toNat

/-- The quote mark for a text. -/
def quoteMark (cs : List Char) : Char := if '\'' ∈ cs ∧ '"' ∉ cs then '"' else '\''

/-- A text as it is shown inside a message. -/
def shown (s : String) : String :=
  let mark := quoteMark s.toList
  String.ofList (mark :: (s.toList.flatMap (shownChar mark) ++ [mark]))

/-- Whether a shell reads `c` as itself. -/
def isPlainInShell (c : Char) : Bool :=
  c.isAlphanum || "_@%+=:,.-/".toList.contains c

/-- One character between single quotes. -/
def singleQuotedChar (c : Char) : List Char :=
  if c = '\'' then ['\'', '"', '\'', '"', '\''] else [c]

/-- A word between single quotes. -/
def singleQuoted (cs : List Char) : List Char :=
  '\'' :: (cs.flatMap singleQuotedChar ++ ['\''])

/-- A word as it is written on a command line. -/
def shellWord (word : String) : String :=
  if word.toList ≠ [] ∧ word.toList.all isPlainInShell = true then word
  else String.ofList (singleQuoted word.toList)

/-- An argument vector as one line. -/
def shellLine (argv : List String) : String := String.intercalate " " (argv.map shellWord)

end AheadOfTime.Text
