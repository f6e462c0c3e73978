import AheadOfTime.System.Octets

/-! # Shell scripts

    The parts of which the scripts of a POSIX shell consist.  A word is a list of
    pieces, which remember where quotes stood and which characters stand for nothing but
    themselves. -/

namespace AheadOfTime.Shell

/-- What is done with a parameter's value. -/
inductive Operation where
  | plain
  | length
  | orDefault
  | orAssign
  | orStop
  | ifSet
  | trimStart (longest : Bool)
  | trimEnd (longest : Bool)
  /-- What looks like an operation and is none. -/
  | unknown
  deriving DecidableEq, Repr

/-- What a redirection to or from a file does. -/
inductive Direction where
  | read
  | readWrite
  | write
  /-- Writes even over a file that is to be kept. -/
  | overwrite
  | append
  deriving DecidableEq, Repr

mutual

/-- A piece of a word. -/
inductive Piece where
  /-- A character, which stands for itself if it is `literal`. -/
  | char (c : Char) (literal : Bool)
  /-- Quotes begin or end here. -/
  | quote
  /-- A parameter; with `emptyToo` an empty value counts as none. -/
  | parameter (name : Octets) (operation : Operation) (emptyToo : Bool) (word : List Piece)
  | substitution (body : Option Command)
  | arithmetic (expression : List Piece)

/-- Where a redirection leads. -/
inductive Goal where
  | file (direction : Direction) (path : List Piece)
  | descriptor (number : Nat)
  | closed
  /-- The number of a descriptor is only known when the word has been expanded. -/
  | computed (word : List Piece)
  /-- The text of the here-document with that number. -/
  | document (number : Nat)

/-- A redirection of a descriptor. -/
inductive Redirection where
  | mk (descriptor : Nat) (goal : Goal)

/-- A command. -/
inductive Command where
  | simple (line : Nat) (assignments words : List (List Piece)) (redirections : List Redirection)
  | redirected (line : Nat) (body : Command) (redirections : List Redirection)
  | subshell (line : Nat) (body : Command) (redirections : List Redirection)
  | background (line : Nat) (body : Command) (redirections : List Redirection)
  | pipeline (commands : List Command) (inBackground : Bool)
  | sequence (first second : Command)
  | both (first second : Command)
  | either (first second : Command)
  | negated (body : Command)
  | choice (condition body : Command) (otherwise : Option Command)
  | loop (untilTrue : Bool) (condition body : Command)
  | each (line : Nat) (name : Octets) (words : List (List Piece)) (body : Command)
  | select (line : Nat) (subject : List Piece) (arms : List (List (List Piece) × Option Command))
  | define (line : Nat) (name : Octets) (body : Command)

end

/-- A word. -/
abbrev Word := List Piece

/-- A here-document: its text, which is expanded unless its end was quoted. -/
structure HereDocument where
  text : Word
  isExpanded : Bool

instance : Inhabited Piece := ⟨.quote⟩
instance : Inhabited Command := ⟨.pipeline [] false⟩

/-- Whether `c` can start a name. -/
def isNameStart (c : Char) : Bool := c.isAlpha || c == '_'

/-- Whether `c` can go on a name. -/
def isNamePart (c : Char) : Bool := c.isAlphanum || c == '_'

/-- Whether `c` is the name of a special parameter. -/
def isSpecialName (c : Char) : Bool := "@*#?-$!".contains c

/-- The name at the start of characters, empty if there is none. -/
def leadingName (cs : List Char) : List Char :=
  if cs.head?.any isNameStart then cs.takeWhile isNamePart else []

/-- Whether a text is a name. -/
def isName (text : Octets) : Bool := text ≠ "" && leadingName text.toList == text.toList

/-- Whether a written word is an assignment. -/
def isAssignment (word : Word) : Bool :=
  let start := word.takeWhile fun
    | .char c false => isNamePart c
    | _ => false
  match start, word.drop start.length with
  | .char c _ :: _, .char '=' false :: _ => isNameStart c
  | _, _ => false

/-- The characters of a word without its quotes. -/
def plainText (word : Word) : Octets :=
  String.ofList (word.filterMap fun
    | .char c _ => some c
    | _ => none)

end AheadOfTime.Shell
