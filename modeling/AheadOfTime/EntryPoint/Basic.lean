import AheadOfTime.Problem

/-! # Entry points

    The symbol of the function that a compiled module exposes.  It is pasted into
    generated code, so it has to be an identifier of C; the type holds nothing else. -/

namespace AheadOfTime

namespace EntryPoint

/-- Whether `c` can start an identifier of C. -/
def isIdentifierStart (c : Char) : Bool := c.isAlpha || c == '_'

/-- Whether `c` can go on an identifier of C. -/
def isIdentifierPart (c : Char) : Bool := c.isAlphanum || c == '_'

/-- Whether the text is an identifier of C. -/
def isIdentifier (cs : List Char) : Bool :=
  match cs with
  | [] => false
  | c :: rest => isIdentifierStart c && rest.all isIdentifierPart

/-- What the symbols of entry points start with. -/
def mark : String := "MREP_"

/-- What no symbol of a single module's entry point contains. -/
def collectiveMark : String := "MREP_ALL"

end EntryPoint

/-- The symbol of a compiled module's entry point. -/
structure EntryPoint where
  symbol : String
  valid : EntryPoint.isIdentifier symbol.toList = true
  deriving DecidableEq, Repr

/-- The entry point of that symbol. -/
def EntryPoint.ofSymbol (symbol : String) : Except Problem EntryPoint :=
  if h : isIdentifier symbol.toList = true then .ok ⟨symbol, h⟩
  else .error (.invalidEntryPoint symbol)

end AheadOfTime
