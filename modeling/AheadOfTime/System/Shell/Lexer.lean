import AheadOfTime.System.Shell.Syntax
import AheadOfTime.System.Octets

/-! # Reading the text of scripts

    The state of a reader of scripts: the characters that are still to be read, the line
    it is in, the names of aliases whose texts are being read in their place, and the
    here-documents whose texts are still to come.  A script is read no further than its
    next complete command. -/

namespace AheadOfTime.Shell

/-- A piece of a script as commands are made of them. -/
inductive Token where
  | endOfFile
  | newline
  | redirection
  | word
  | sign (text : String)
  | keyword (text : String)
  deriving DecidableEq, Repr

/-- A token as messages name it. -/
def Token.shown : Token → String
  | endOfFile => "end of file"
  | newline => "newline"
  | redirection => "redirection"
  | word => "word"
  | sign text | keyword text => "\"" ++ text ++ "\""

/-- The words that have a meaning of their own where a command can start. -/
def keywords : List String :=
  ["!", "case", "do", "done", "elif", "else", "esac", "fi", "for", "if", "in", "then", "until",
    "while", "\x7b", "\x7d"]

/-- The tokens that end a list of commands inside of another command. -/
def closingTokens : List Token :=
  [.endOfFile, .sign ")", .sign ";;"] ++
    ["then", "else", "elif", "fi", "do", "done", "esac", "\x7d"].map .keyword

/-- What a redirection does, as far as its operator says. -/
inductive Operator where
  | file (direction : Direction)
  | duplicate
  | document (stripsTabs : Bool)
  deriving DecidableEq, Repr

/-- What a token may be besides what its characters say. -/
structure Expected where
  keywords : Bool := false
  aliases : Bool := false
  /-- Ends of lines are skipped. -/
  newlines : Bool := false
  /-- The token marks the end of a here-document, so nothing in it is replaced. -/
  mark : Bool := false
  deriving DecidableEq, Repr

/-- A here-document whose text is still to come. -/
structure PendingDocument where
  number : Nat
  mark : Octets
  stripsTabs : Bool
  isExpanded : Bool

/-- The text of an alias that is read in the place of its name. -/
structure AliasText where
  text : List Char
  name : Octets
  endsInBlank : Bool

/-- The state of a reader of scripts. -/
structure Lexer where
  input : List Char
  line : Nat := 1
  aliases : List (Octets × Octets) := []
  aliasTexts : List AliasText := []
  /-- Aliases whose texts have just been read to their ends. -/
  justRead : List Octets := []
  /-- Whether the end of the input has been met. -/
  sawEnd : Bool := false
  token : Token := .newline
  isPushedBack : Bool := false
  expected : Expected := {}
  word : Word := []
  isQuoted : Bool := false
  descriptor : Nat := 0
  operator : Operator := .duplicate
  pending : List PendingDocument := []
  documents : List (Nat × HereDocument) := []
  nextDocument : Nat := 0

/-- A reader of scripts; a mistake comes with the state in which it was found. -/
abbrev Parser := StateT Lexer (Except (String × Lexer))

namespace Parser

/-- Ends with a mistake. -/
def fail (mistake : String) : Parser α := do throw (mistake, ← get)

/-- Leaves the texts of aliases that have been read to their ends. -/
def leaveAliases : List AliasText → Parser Unit
  | [] => modify fun l => { l with aliasTexts := [] }
  | entry :: outer =>
    if entry.text.isEmpty then do
      modify fun l => { l with
        justRead := entry.name :: l.justRead
        expected := { l.expected with aliases := l.expected.aliases || entry.endsInBlank } }
      leaveAliases outer
    else modify fun l => { l with aliasTexts := entry :: outer }

/-- Reads a character; none at the end of the input. -/
def next? : Parser (Option Char) := do
  let l ← get
  unless l.justRead.isEmpty do set { l with justRead := [] }
  unless l.aliasTexts.isEmpty do leaveAliases l.aliasTexts
  let l ← get
  match l.aliasTexts with
  | entry :: outer =>
    set { l with aliasTexts := { entry with text := entry.text.drop 1 } :: outer }
    return entry.text.head?
  | [] => match l.input with
    | c :: rest => set { l with input := rest }; return some c
    | [] => set { l with sawEnd := true }; return none

/-- Puts a character back. -/
def unread (c : Option Char) : Parser Unit :=
  match c with
  | none => return ()
  | some c => modify fun l => match l.aliasTexts with
    | entry :: outer => { l with aliasTexts := { entry with text := c :: entry.text } :: outer }
    | [] => { l with input := c :: l.input }

/-- Notes that a line has ended. -/
def endLine : Parser Unit := modify fun l => { l with line := l.line + 1 }

/-- Reads a character, after lines that a backslash continues. -/
def nextJoined? : Parser (Option Char) := do
  repeatUntil none (fun () => do
    match ← next? with
    | some '\\' =>
      match ← next? with
      | some '\n' => endLine; return .again ()
      | c => unread c; return .done (some '\\')
    | c => return .done c) ()

/-- Whether another character follows `c`. -/
def isFollowedBy (c : Char) : Parser Bool := do
  let d ← nextJoined?
  if d = some c then return true
  unread d
  return false

end Parser

end AheadOfTime.Shell
