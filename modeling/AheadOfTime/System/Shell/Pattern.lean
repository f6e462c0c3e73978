import AheadOfTime.System.Octets

/-! # Patterns

    A pattern describes texts: a star stands for any text, a question mark for any byte,
    brackets for one byte of a set, and everything else for itself.  Behind a backslash
    a byte only stands for itself. -/

namespace AheadOfTime.Shell.Pattern

/-- The classes of bytes that have names. -/
def classes : List (String × (Char → Bool)) :=
  let isVisible (c : Char) : Bool := '!' ≤ c && c ≤ '~'
  [("alnum", Char.isAlphanum), ("cntrl", fun c => c < ' ' || c = '\x7f'), ("lower", Char.isLower),
    ("space", fun c => " \t\n\x0b\x0c\r".contains c), ("alpha", Char.isAlpha),
    ("digit", Char.isDigit), ("print", fun c => c = ' ' || isVisible c), ("upper", Char.isUpper),
    ("blank", fun c => c = ' ' || c = '\t'), ("graph", isVisible),
    ("punct", fun c => isVisible c && !c.isAlphanum),
    ("xdigit", fun c => c.isDigit || ('a' ≤ c.toLower && c.toLower ≤ 'f'))]

/-- The class whose name stands here, behind an opening bracket, and what follows it. -/
def class? (pattern : List Char) : Option ((Char → Bool) × List Char) :=
  classes.findSome? fun (name, holds) =>
    let shown := ':' :: name.toList ++ [':', ']']
    if shown.isPrefixOf pattern then some (holds, pattern.drop shown.length) else none

/-- The place of a byte in ranges; bytes beyond the first half come before the others. -/
def rank (c : Char) : Int := if c.toNat < 128 then c.toNat else (c.toNat : Int) - 256

/-- Whether a byte is in brackets, given what they hold from a place on, and what
    follows them; at their start a closing bracket is a byte of theirs. -/
def inBrackets (d : Char) : Nat → Bool → Bool → List Char → Option (Bool × List Char)
  | 0, _, _, _ => none
  | n + 1, isFirst, found, pattern => match pattern with
    | [] => none
    | ']' :: rest => if isFirst then range n found ']' rest else some (found, rest)
    | '[' :: rest => match class? rest with
      | some (holds, rest) => inBrackets d n false (found || holds d) rest
      | none => range n found '[' rest
    | '\\' :: c :: rest => range n found c rest
    | c :: rest => range n found c rest
where
  /-- Goes on behind a byte, or behind the range that starts with it. -/
  range (n : Nat) (found : Bool) (c : Char) : List Char → Option (Bool × List Char)
    | '-' :: last :: rest =>
      if last = ']' then inBrackets d n false (found || d = c) ('-' :: last :: rest)
      else
        let (last, rest) := match last, rest with
          | '\\', e :: rest => (e, rest)
          | last, rest => (last, rest)
        inBrackets d n false (found || rank c ≤ rank d && rank d ≤ rank last) rest
    | rest => inBrackets d n false (found || d = c) rest

/-- Whether a byte is one of those that brackets stand for, and what follows the
    brackets, of which the opening one has been read. -/
def bracket? (d : Char) (pattern : List Char) : Option (Bool × List Char) :=
  let (negated, inner) := match pattern with
    | '!' :: rest => (true, rest)
    | rest => (false, rest)
  (inBrackets d (inner.length + 1) true false inner).map fun (found, rest) =>
    (found != negated, rest)

/-- Whether a pattern of less than the given length describes the text. -/
def describesFor : Nat → List Char → List Char → Bool
  | 0, _, _ => false
  | _, [], text => text.isEmpty
  | n + 1, '*' :: later, text =>
    if later.isEmpty then true else suffixes n later text
  | _, _ :: _, [] => false
  | n + 1, '?' :: later, _ :: text => describesFor n later text
  | n + 1, '[' :: later, c :: text => match bracket? c later with
    | some (holds, rest) => holds && describesFor n rest text
    | none => c = '[' && describesFor n later text
  | n + 1, '\\' :: d :: later, c :: text => c = d && describesFor n later text
  | n + 1, d :: later, c :: text => c = d && describesFor n later text
where
  /-- Whether the pattern describes an end of the text. -/
  suffixes (n : Nat) (later : List Char) : List Char → Bool
    | [] => describesFor n later []
    | c :: text => describesFor n later (c :: text) || suffixes n later text

/-- Whether the pattern describes the text. -/
def describes (pattern text : List Char) : Bool := describesFor (pattern.length + 1) pattern text

/-- How many bytes at the start of a text the pattern describes. -/
def prefixLength? (pattern : List Char) (longest : Bool) (text : List Char) : Option Nat :=
  let lengths := List.range (text.length + 1)
  (if longest then lengths.reverse else lengths).find? fun n => describes pattern (text.take n)

/-- How many bytes at the end of a text the pattern describes. -/
def suffixLength? (pattern : List Char) (longest : Bool) (text : List Char) : Option Nat :=
  let lengths := List.range (text.length + 1)
  (if longest then lengths.reverse else lengths).find? fun n =>
    describes pattern (text.drop (text.length - n))

end AheadOfTime.Shell.Pattern
