import AheadOfTime.System.Shell.Lexer

/-! # Words as they are written

    Reading a word: quotes, parameters and their operations, substitutions and
    arithmetic, each of which may stand inside of others.  The text of a here-document
    is read in the same way, up to the line that ends it.  How commands are read that
    stand inside of words is left to a parameter. -/

namespace AheadOfTime.Shell

/-- What characters mean in a part of a word. -/
inductive Mode where
  | bare
  | single
  | double
  | arithmetic
  deriving DecidableEq, Repr

/-- What a character does to the word that is being read. -/
inductive CharClass where
  | plain
  /-- It has a meaning outside of quotes that it has lost here. -/
  | guarded
  | lineEnd
  | backslash
  | singleQuote
  | doubleQuote
  | endQuote
  | backquote
  | dollar
  | closingBrace
  | openingParenthesis
  | closingParenthesis
  | delimiter
  deriving DecidableEq, Repr

/-- What a character does in a mode. -/
def Mode.classOf (mode : Mode) (c : Char) : CharClass :=
  match mode, c with
  | _, '\n' => .lineEnd
  | .single, '\'' => .endQuote
  | .single, c => if "!*?[=~:/-\\]".contains c then .guarded else .plain
  | _, '\\' => .backslash
  | _, '\x60' => .backquote
  | _, '$' => .dollar
  | _, '\x7d' => .closingBrace
  | .bare, '\'' => .singleQuote
  | .bare, '"' => .doubleQuote
  | .bare, c => if "<>();&| \t".contains c then .delimiter else .plain
  | .double, '"' => .endQuote
  | .double, c => if "!*?[=~:/-]".contains c then .guarded else .plain
  | .arithmetic, '(' => .openingParenthesis
  | .arithmetic, ')' => .closingParenthesis
  | .arithmetic, _ => .plain

/-- A part of a word with a mode of its own, and what is open in it. -/
structure Level where
  mode : Mode
  isDouble : Bool := false
  /-- Quotes inside of braces are open. -/
  isInnerDouble : Bool := false
  /-- The level is left with its last brace. -/
  endsWithBrace : Bool := false
  braces : Nat := 0
  doubleBraces : Nat := 0
  parentheses : Nat := 0

/-- A piece of a word that is being read, with the pieces in front of it, last first. -/
inductive Opening where
  | parameter (name : Octets) (operation : Operation) (emptyToo : Bool) (before : List Piece)
  | arithmetic (before : List Piece)

/-- A word that is being read: its levels, the innermost first, and its pieces, last first. -/
structure Scan where
  level : Level
  outer : List Level := []
  openings : List Opening := []
  pieces : List Piece := []
  isQuoted : Bool := false
  /-- A here-document is read, or a text like one. -/
  isDocument : Bool := false
  /-- The line that ends the here-document, and whether tabs in front of lines are dropped. -/
  mark : Option (Octets × Bool) := none

namespace Scan

/-- The word with a piece more. -/
def add (s : Scan) (piece : Piece) : Scan := { s with pieces := piece :: s.pieces }

/-- The word with a character more. -/
def addChar (s : Scan) (c : Char) (literal : Bool) : Scan := s.add (.char c literal)

/-- The word with the innermost piece that is open closed. -/
def close (s : Scan) : Scan :=
  match s.openings with
  | [] => s
  | .parameter name operation emptyToo before :: outer =>
    { s with
      openings := outer
      pieces := .parameter name operation emptyToo s.pieces.reverse :: before }
  | .arithmetic before :: outer =>
    { s with openings := outer, pieces := .arithmetic s.pieces.reverse :: before }

/-- The word in a new level. -/
def push (s : Scan) (level : Level) : Scan :=
  { s with level, outer := s.level :: s.outer }

/-- The word without its innermost level. -/
def pop (s : Scan) : Scan :=
  match s.outer with
  | [] => s
  | level :: outer => { s with level, outer }

/-- Quotes begin or end inside of braces. -/
def toggleInner (s : Scan) : Scan :=
  if s.level.braces = 0 then s
  else { s with level := { s.level with isInnerDouble := !s.level.isInnerDouble } }

/-- Notes quotes that begin or end. -/
def addQuote (s : Scan) : Scan := if s.isDocument then s else s.add .quote

end Scan

namespace Parser

/-- How the commands are read that stand inside of a word; a parenthesis closes them,
    unless they make up a text of their own. -/
abbrev Nested := (isClosed : Bool) → Parser (Option Command)

/-- The next character of a word, and the lines that are continued if the mode says so. -/
def nextIn (s : Scan) : Parser (Option Char) :=
  if s.level.mode = .single then next? else nextJoined?

/-- Whether the line that starts with `c` ends the here-document; if not, the character
    it starts with when tabs are dropped. -/
def documentEnds (mark : Octets) (stripsTabs : Bool) (c : Option Char) :
    Parser (Bool × Option Char) := do
  let first ← if stripsTabs then
      repeatUntil none (fun c => do
        if c = some '\t' then return .again (← next?) else return .done c) c
    else pure c
  let (read, matched) ← repeatUntil ([], false) (fun ((read, rest), c) => do
    match rest, c with
    | [], none => return .done (read, true)
    | [], some '\n' => return .done (read, true)
    | d :: rest, some c =>
      if c = d then return .again ((c :: read, rest), ← next?) else return .done (c :: read, false)
    | _, some c => return .done (c :: read, false)
    | _, none => return .done (read, false)) (([], mark.toList), first)
  if matched then
    endLine
    return (true, none)
  match read.reverse with
  | [] => return (false, none)
  | c :: rest =>
    modify fun l => if rest.isEmpty then l else { l with input := rest ++ l.input }
    return (false, some c)

/-- The operation that follows a parameter's name inside of braces, which starts with
    `c`, whether an empty value counts as none, and whether the word of the operation is
    a pattern. -/
def operation (c : Option Char) : Parser (Operation × Bool × Bool) := do
  let ofSign (c : Option Char) : Option Operation :=
    [('\x7d', .plain), ('-', .orDefault), ('+', .ifSet), ('?', .orStop),
      ('=', Operation.orAssign)].lookup (c.getD ' ')
  match c with
  | some ':' =>
    let c ← nextJoined?
    match ofSign c with
    | some operation => return (operation, true, false)
    | none => return (.unknown, true, false)
  | some '#' => return (.trimStart (← isFollowedBy '#'), false, true)
  | some '%' => return (.trimEnd (← isFollowedBy '%'), false, true)
  | c => return ((ofSign c).getD .unknown, false, false)

/-- The rest of a name, and the character behind it. -/
def nameFrom (goesOn : Char → Bool) (c : Char) : Parser (Octets × Option Char) := do
  repeatUntil ("", none) (fun (name : Octets) => do
    match ← nextJoined? with
    | some c => if goesOn c then return .again (name.push c) else return .done (name, some c)
    | none => return .done (name, none)) (String.singleton c)

/-- A parameter inside of braces, which start with `c`: its name, its operation, whether
    an empty value counts as none, and whether the word of the operation is a pattern. -/
def bracedParameter (c : Option Char) : Parser (Octets × Operation × Bool × Bool) := do
  let named (c : Char) : Parser (Octets × Option Char) :=
    if isNameStart c then nameFrom isNamePart c else nameFrom Char.isDigit c
  let isNamed (c : Option Char) : Bool := c.any fun c => isNameStart c || c.isDigit
  let finish (name : Octets) (c : Option Char) : Parser (Octets × Operation × Bool × Bool) := do
    let (operation, emptyToo, isPattern) ← operation c
    return (name, operation, emptyToo, isPattern)
  let broken (c : Option Char) : Parser (Octets × Operation × Bool × Bool) := do
    unread c
    return ("", .unknown, false, false)
  let lengthOf (name : Octets) (c : Option Char) : Parser (Octets × Operation × Bool × Bool) := do
    if c = some '\x7d' then return (name, .length, false, false)
    unread c
    return (name, .unknown, false, false)
  match c with
  | some '\x7d' => broken c
  | none => broken none
  | some first =>
    if isNamed c then
      let (name, c) ← named first
      finish name c
    else
      let c ← nextJoined?
      if first = '#' then
        if isNamed c then
          let (name, c) ← named (c.getD ' ')
          lengthOf name c
        else
          let after ← nextJoined?
          if c = some '\x7d' || after ≠ some '\x7d' then
            unread after
            finish "#" c
          else match c with
            | some c =>
              if isSpecialName c then lengthOf (String.singleton c) after else broken after
            | none => broken after
      else if isSpecialName first then finish (String.singleton first) c
      else broken c

/-- The name of a parameter without braces, of which `c` is the first character. -/
def bareParameter (c : Char) : Parser Octets := do
  if isNameStart c then
    let (name, after) ← nameFrom isNamePart c
    unread after
    return name
  return String.singleton c

/-- The text of a substitution in back quotes, without the backslashes that protect its
    characters. -/
def backquoted (isDouble : Bool) : Parser (List Char) := do
  let text ← repeatFor (fun (text : List Char) => do
    match ← nextJoined? with
    | some '\x60' => return .done text.reverse
    | some '\\' =>
      match ← next? with
      | some c =>
        if c = '\\' || c = '\x60' || c = '$' || isDouble && c = '"' then
          return .again (c :: text)
        else return .again (c :: '\\' :: text)
      | none => return .again ('\\' :: text)
    | some '\n' => endLine; return .again ('\n' :: text)
    | some c => return .again (c :: text)
    | none => fail "EOF in backquote substitution") roundLimit []
  return text.getD []

/-- Reads what stands in a text of its own, as `act` says, and then goes on behind it. -/
def within (text : List Char) (act : Parser α) : Parser α := do
  let l ← get
  set { l with
    input := text, line := 1, aliasTexts := [], justRead := [], pending := []
    isPushedBack := false, sawEnd := false, expected := {} }
  let a ← act
  modify fun after => { l with
    documents := after.documents, nextDocument := after.nextDocument, isPushedBack := false }
  return a

/-- What a dollar sign starts. -/
def dollar (nested : Nested) (s : Scan) : Parser Scan := do
  let c ← nextJoined?
  let starts (c : Char) : Bool := c == '(' || c == '\x7b' || isNameStart c || c.isDigit ||
    isSpecialName c
  if (← get).expected.mark || !c.any starts then
    unread c
    return s.addChar '$' false
  match c with
  | some '(' =>
    if ← isFollowedBy '(' then
      return { s.push { mode := .arithmetic, isDouble := true } with
        openings := .arithmetic s.pieces :: s.openings, pieces := [] }
    let outer := (← get).pending
    modify fun l => { l with pending := [] }
    let body ← nested true
    modify fun l => { l with pending := outer }
    return s.add (.substitution body)
  | some '\x7b' =>
    let (name, operation, emptyToo, isPattern) ← bracedParameter (← nextJoined?)
    if operation = .plain && !emptyToo then
      return s.add (.parameter name .plain false [])
    if operation = .length then return s.add (.parameter name .length false [])
    let mode := if isPattern then .bare
      else if s.level.mode = .arithmetic then .double else s.level.mode
    let s := if mode ≠ s.level.mode || s.level.isInnerDouble then
        s.push { mode, endsWithBrace := true, isDouble := mode ≠ .bare }
      else s
    return { s with
      level := { s.level with
        braces := s.level.braces + 1
        doubleBraces := s.level.doubleBraces + (if s.level.isDouble then 1 else 0) }
      openings := .parameter name operation emptyToo s.pieces :: s.openings
      pieces := [] }
  | some c => return s.add (.parameter (← bareParameter c) .plain false [])
  | none => return s

/-- A substitution in back quotes. -/
def backquote (nested : Nested) (s : Scan) : Parser Scan := do
  if (← get).expected.mark then return s.addChar '\x60' false
  let text ← backquoted s.level.isDouble
  return s.add (.substitution (← within text (nested false)))

/-- A backslash and what follows it. -/
def escaped (s : Scan) : Parser Scan := do
  match ← next? with
  | none => return s.addChar '\\' true
  | some c =>
    let keepsBackslash := s.level.isDouble && c ≠ '\\' && c ≠ '\x60' && c ≠ '$' &&
      (c ≠ '"' || s.isDocument && s.level.braces = 0) && (c ≠ '\x7d' || s.level.braces = 0)
    let s := if keepsBackslash then s.addChar '\\' true else s
    return { s.addChar c true with isQuoted := true }

/-- A closing brace. -/
def closingBrace (s : Scan) : Scan :=
  if s.level.isInnerDouble || s.level.braces = 0 then s.addChar '\x7d' false
  else
    let s := s.close
    let braces := s.level.braces - 1
    let s := { s with level := { s.level with braces } }
    if braces = 0 && s.level.endsWithBrace then s.pop
    else { s with level := { s.level with doubleBraces := s.level.doubleBraces - 1 } }

/-- What ends quotes. -/
def endQuote (s : Scan) (c : Char) : Scan :=
  if s.isDocument && s.level.braces = 0 then s.addChar c false
  else
    let s := if s.level.doubleBraces = 0 then
        { s with level := { s.level with mode := .bare, isDouble := false } }
      else s
    let s := { s with isQuoted := true }
    (if c = '"' then s.toggleInner else s).addQuote

/-- Goes on with a character that is in the word whatever comes; none at the end of the word. -/
def scanChar (nested : Nested) (s : Scan) (c : Char) : Parser (Option Scan) := do
  match s.level.mode.classOf c with
  | .plain => return some (s.addChar c false)
  | .guarded => return some (s.addChar c (!s.isDocument || s.level.isDouble))
  | .lineEnd =>
    if s.level.mode = .bare && s.level.braces = 0 then return none
    endLine
    return some (s.addChar c false)
  | .backslash => return some (← escaped s)
  | .singleQuote =>
    return some ({ s with level := { s.level with mode := .single } }.addQuote)
  | .doubleQuote =>
    let s := { s with level := { s.level with mode := .double, isDouble := true } }
    return some s.toggleInner.addQuote
  | .endQuote => return some (endQuote s c)
  | .backquote => return some (← backquote nested s)
  | .dollar => return some (← dollar nested s)
  | .closingBrace => return some (closingBrace s)
  | .openingParenthesis =>
    return some ({ s with level := { s.level with parentheses := s.level.parentheses + 1 } }.addChar
      c false)
  | .closingParenthesis =>
    if 0 < s.level.parentheses then
      return some ({ s with
        level := { s.level with parentheses := s.level.parentheses - 1 } }.addChar c false)
    if ← isFollowedBy ')' then return some s.close.pop
    return some (s.addChar ')' false)
  | .delimiter => if s.level.braces = 0 then return none else return some (s.addChar c false)

/-- Reads a word from its first character on; answers the character behind it. -/
def scan (nested : Nested) (s : Scan) (first : Option Char) : Parser (Scan × Option Char) := do
  repeatUntil (s, none) (fun (s, c, startsLine) => do
    let (ended, c) ← match s.mark with
      | some (mark, stripsTabs) =>
        if startsLine then documentEnds mark stripsTabs c else pure (false, c)
      | none => pure (false, c)
    if ended then return .done (s, none)
    match c with
    | none => return .done (s, none)
    | some c => match ← scanChar nested s c with
      | none => return .done (s, some c)
      | some s => return .again (s, ← nextIn s, c == '\n')) (s, first, true)

/-- Reads a whole word or here-document and makes sure that nothing is left open in it. -/
def scanWhole (nested : Nested) (s : Scan) (first : Option Char) : Parser (Scan × Option Char) := do
  let (s, after) ← scan nested s first
  if s.level.mode = .arithmetic then fail "Missing '))'"
  if s.level.mode ≠ .bare && !s.isDocument then fail "Unterminated quoted string"
  if s.level.braces ≠ 0 then fail "Missing '\x7d'"
  return (s, after)

/-- The text of a here-document. -/
def documentText (nested : Nested) (document : PendingDocument) : Parser HereDocument := do
  let mode := if document.isExpanded then .double else .single
  let s : Scan :=
    { level := { mode, isDouble := document.isExpanded }
      isDocument := true, mark := some (document.mark, document.stripsTabs) }
  let first ← if document.isExpanded then nextJoined? else next?
  let (s, _) ← scanWhole nested s first
  return ⟨s.pieces.reverse, document.isExpanded⟩

/-- A text in which parameters and substitutions are replaced as in double quotes. -/
def promptText (nested : Nested) : Parser Word := do
  let s : Scan := { level := { mode := .double, isDouble := true }, isDocument := true }
  let (s, _) ← scanWhole nested s (← nextJoined?)
  return s.pieces.reverse

end Parser

end AheadOfTime.Shell
