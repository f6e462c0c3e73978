import AheadOfTime.System.Shell.Scan

/-! # Commands as they are written

    A parser by recursive descent.  It reads one complete command, up to the end of a
    line, so that what stands in front of a mistake is run.  Lists of commands and
    bodies of functions stand inside of other commands; one function reads both, with a
    bound on how deep they are nested. -/

namespace AheadOfTime.Shell

/-- The built-in commands that no function can be named after. -/
def reservedNames : List Octets :=
  [".", ":", "break", "continue", "eval", "exec", "exit", "export", "readonly", "return", "set",
    "shift", "times", "trap", "unset"]

/-- What stands inside of other commands. -/
inductive Part where
  /-- A list of commands, with at least one of them unless it `mayBeEmpty`. -/
  | list (mayBeEmpty : Bool)
  /-- A single command. -/
  | command
  /-- The commands of a substitution, and the parenthesis that closes them, if one does. -/
  | substitution (isClosed : Bool)
  deriving DecidableEq, Repr

namespace Parser

/-- How parts of commands are read. -/
abbrev Inner := Part → Parser (Option Command)

/-- How the commands are read that stand inside of words. -/
abbrev nestedIn (inner : Inner) : Nested := fun isClosed => inner (.substitution isClosed)

/-- Ends since the last token was not expected here. -/
def unexpected (expected : Option Token) : Parser α := do
  let found := (← get).token.shown ++ " unexpected"
  match expected with
  | none => fail found
  | some token => fail (found ++ " (expecting " ++ token.shown ++ ")")

/-- Notes a token as the last one. -/
def setToken (token : Token) : Parser Token := do
  modify fun l => { l with token }
  return token

/-- Lets the last token be read again. -/
def pushBack : Parser Unit := modify fun l => { l with isPushedBack := true }

/-- Says what the next token may be. -/
def expect (expected : Expected) : Parser Unit := modify fun l => { l with expected }

/-- The operator of a redirection, which starts with `c`. -/
def redirectionOperator (c : Char) : Parser Operator := do
  let d ← nextJoined?
  match c, d with
  | '>', some '>' => return .file .append
  | '>', some '|' => return .file .overwrite
  | _, some '&' => return .duplicate
  | '<', some '>' => return .file .readWrite
  | '<', some '<' => return .document (← isFollowedBy '-')
  | '>', d => unread d; return .file .write
  | _, d => unread d; return .file .read

/-- A word that starts with a character, or the redirection that it is the descriptor of. -/
def wordToken (nested : Nested) (first : Char) : Parser Token := do
  let (s, after) ← scanWhole nested { level := { mode := .bare } } (some first)
  let word := s.pieces.reverse
  let number? : Option (Option Nat) := match word with
    | [] => some none
    | [.char d false] => if d.isDigit then some (some (d.toNat - '0'.toNat)) else none
    | _ => none
  match after, number? with
  | some c, some number =>
    if (c = '<' || c = '>') && !s.isQuoted then
      let operator ← redirectionOperator c
      modify fun l => { l with
        operator, descriptor := number.getD (if c = '<' then 0 else 1) }
      return ← setToken .redirection
  | _, _ => pure ()
  unread after
  modify fun l => { l with word, isQuoted := s.isQuoted }
  setToken .word

/-- Skips a comment. -/
def skipComment : Parser Unit :=
  repeatUntil () (fun () => do
    match ← next? with
    | none => return .done ()
    | some '\n' => unread (some '\n'); return .done ()
    | some _ => return .again ()) ()

/-- The next token, whatever its word may mean. -/
def rawToken (nested : Nested) : Parser Token := do
  let l ← get
  if l.isPushedBack then
    set { l with isPushedBack := false }
    return l.token
  repeatUntil .endOfFile (fun () => do
    let double (c : Char) (one two : String) : Parser (Round Unit Token) := do
      return .done (← setToken (.sign (if ← isFollowedBy c then two else one)))
    match ← nextJoined? with
    | some ' ' | some '\t' => return .again ()
    | some '#' => skipComment; return .again ()
    | some '\n' => endLine; return .done (← setToken .newline)
    | none => return .done (← setToken .endOfFile)
    | some '&' => double '&' "&" "&&"
    | some '|' => double '|' "|" "||"
    | some ';' => double ';' ";" ";;"
    | some '(' => return .done (← setToken (.sign "("))
    | some ')' => return .done (← setToken (.sign ")"))
    | some c => return .done (← wordToken nested c)) ()

/-- Reads the here-documents whose texts begin here. -/
def readDocuments (nested : Nested) : Parser Unit := do
  let pending := (← get).pending
  modify fun l => { l with pending := [] }
  for document in pending do
    let text ← documentText nested document
    modify fun l => { l with documents := l.documents ++ [(document.number, text)] }

/-- The alias that a word is the name of, unless its text is being read. -/
def alias? (name : Octets) : Parser (Option Octets) := do
  let l ← get
  if l.aliasTexts.any (·.name == name) || l.justRead.contains name then return none
  return l.aliases.lookup name

/-- The next token. -/
def token (nested : Nested) : Parser Token := do
  repeatUntil .endOfFile (fun (allowed : Expected) => do
    let first ← rawToken nested
    let found ← if allowed.newlines then
        repeatUntil .endOfFile (fun found => do
          if found ≠ .newline then return .done found
          readDocuments nested
          expect {}
          return .again (← rawToken nested)) first
      else pure first
    let l ← get
    let allowed := { allowed with
      keywords := allowed.keywords || l.expected.keywords
      aliases := allowed.aliases || l.expected.aliases }
    expect {}
    if found ≠ .word || l.isQuoted then return .done found
    let text := plainText l.word
    let isPlain := l.word.length = text.length
    if allowed.keywords && isPlain && keywords.contains text then
      return .done (← setToken (.keyword text))
    if allowed.aliases && isPlain then
      if let some value ← alias? text then
        unless value = "" do
          modify fun l => { l with aliasTexts :=
            ⟨value.toList, text, value.endsWith " " || value.endsWith "\t"⟩ :: l.aliasTexts }
        return .again allowed
    return .done found) (← get).expected

/-- Where a command may start. -/
def atCommand : Expected := { keywords := true, aliases := true }

/-- Where a command may start, perhaps on a later line. -/
def atLaterCommand : Expected := { atCommand with newlines := true }

/-- The target of the redirection whose operator has been read. -/
def redirectionHere (nested : Nested) : Parser Redirection := do
  let l ← get
  let isDocument := match l.operator with
    | .document _ => true
    | _ => false
  if isDocument then expect { mark := true }
  if (← token nested) ≠ .word then unexpected none
  let after ← get
  match l.operator with
  | .file direction => return .mk l.descriptor (.file direction after.word)
  | .duplicate => match after.word with
    | [.char '-' false] => return .mk l.descriptor .closed
    | [.char d false] =>
      if d.isDigit then return .mk l.descriptor (.descriptor (d.toNat - '0'.toNat))
      return .mk l.descriptor (.computed after.word)
    | word => return .mk l.descriptor (.computed word)
  | .document stripsTabs =>
    let number := after.nextDocument
    let document : PendingDocument :=
      ⟨number, plainText after.word, stripsTabs, !after.isQuoted⟩
    set { after with pending := after.pending ++ [document], nextDocument := number + 1 }
    return .mk l.descriptor (.document number)

/-- What a simple command consists of, as far as it has been read, last things first. -/
structure SimpleParts where
  assignments : List Word := []
  words : List Word := []
  redirections : List Redirection := []

/-- The definition of a function, behind the opening parenthesis. -/
def definition (inner : Inner) (name : Word) : Parser Command := do
  if (← token (nestedIn inner)) ≠ .sign ")" then unexpected (some (.sign ")"))
  let text := plainText name
  if text.length ≠ name.length || !isName text || reservedNames.contains text then
    fail "Bad function name"
  expect atLaterCommand
  let line := (← get).line
  match ← inner .command with
  | some body => return .define line text body
  | none => unexpected none

/-- A simple command, or the definition of a function. -/
def simple (inner : Inner) : Parser Command := do
  let line := (← get).line
  let nested := nestedIn inner
  repeatUntil (.pipeline [] false) (fun (parts : SimpleParts) => do
    expect { aliases := parts.words.isEmpty }
    match ← token nested with
    | .word =>
      let word := (← get).word
      if parts.words.isEmpty && isAssignment word then
        return .again { parts with assignments := word :: parts.assignments }
      return .again { parts with words := word :: parts.words }
    | .redirection =>
      let redirection ← redirectionHere nested
      return .again { parts with redirections := redirection :: parts.redirections }
    | found =>
      match found, parts with
      | .sign "(", ⟨[], [name], []⟩ => return .done (← definition inner name)
      | _, _ =>
        pushBack
        return .done (.simple line parts.assignments.reverse parts.words.reverse
          parts.redirections.reverse)) {}

/-- A list of commands that is not empty, unless the text ends before it. -/
def listOf (inner : Inner) : Parser Command := do
  return (← inner (.list false)).getD (.pipeline [] false)

/-- Requires a token. -/
def require (nested : Nested) (wanted : Token) : Parser Unit := do
  if (← token nested) ≠ wanted then unexpected (some wanted)

/-- What follows the word `if`, up to the word `fi`. -/
def choiceHere (inner : Inner) : Parser Command := do
  let nested := nestedIn inner
  let branches ← repeatUntil [] (fun (branches : List (Command × Command)) => do
    let condition ← listOf inner
    require nested (.keyword "then")
    let body ← listOf inner
    let branches := (condition, body) :: branches
    if (← token nested) = .keyword "elif" then return .again branches
    return .done branches) []
  let otherwise ← if (← get).token = .keyword "else" then pure (some (← listOf inner))
    else do
      pushBack
      pure none
  match branches with
  | [] => unexpected none
  | (condition, body) :: earlier =>
    return earlier.foldl (fun rest (condition, body) => .choice condition body (some rest))
      (.choice condition body otherwise)

/-- The words behind `in`, up to the end of a line or a semicolon. -/
def wordsHere (nested : Nested) : Parser (List Word) := do
  let words ← repeatUntil [] (fun (words : List Word) => do
    match ← token nested with
    | .word => return .again ((← get).word :: words)
    | .newline | .sign ";" => return .done words
    | _ => unexpected none) []
  return words.reverse

/-- The word for all parameters. -/
def allParameters : Word := [.quote, .parameter "@" .plain false [], .quote]

/-- What follows the word `for`, up to the word `do`. -/
def eachHere (inner : Inner) (line : Nat) : Parser Command := do
  let nested := nestedIn inner
  let found ← token nested
  let l ← get
  let name := plainText l.word
  if found ≠ .word || l.isQuoted || name.length ≠ l.word.length || !isName name then
    fail "Bad for loop variable"
  expect atLaterCommand
  let words ← if (← token nested) = .keyword "in" then wordsHere nested
    else do
      if (← get).token ≠ .sign ";" then pushBack
      pure [allParameters]
  expect atLaterCommand
  require nested (.keyword "do")
  return .each line name words (← listOf inner)

/-- The patterns of an arm, from the first one on, and the parenthesis behind them. -/
def patternsHere (nested : Nested) : Parser (List Word) := do
  let patterns ← repeatUntil [] (fun (patterns : List Word) => do
    let patterns := (← get).word :: patterns
    if (← token nested) = .sign "|" then
      let _ ← token nested
      return .again patterns
    return .done patterns) []
  if (← get).token ≠ .sign ")" then unexpected (some (.sign ")"))
  return patterns.reverse

/-- What follows the word `case`, up to the word `esac`. -/
def selectHere (inner : Inner) (line : Nat) : Parser Command := do
  let nested := nestedIn inner
  require nested .word
  let subject := (← get).word
  expect atLaterCommand
  require nested (.keyword "in")
  let arms ← repeatUntil [] (fun (arms : List (List Word × Option Command)) => do
    expect { keywords := true, newlines := true }
    if (← token nested) = .keyword "esac" then return .done arms
    if (← get).token = .sign "(" then
      let _ ← token nested
    let patterns ← patternsHere nested
    let arms := (patterns, ← inner (.list true)) :: arms
    expect { keywords := true, newlines := true }
    match ← token nested with
    | .keyword "esac" => return .done arms
    | .sign ";;" => return .again arms
    | _ => unexpected (some (.sign ";;"))) []
  return .select line subject arms.reverse

/-- A command with the redirections behind it. -/
def withRedirections (nested : Nested) (line : Nat) (command : Command) : Parser Command := do
  expect atCommand
  let redirections ← repeatUntil [] (fun (found : List Redirection) => do
    if (← token nested) = .redirection then
      return .again ((← redirectionHere nested) :: found)
    pushBack
    return .done found) []
  match redirections.reverse, command with
  | [], command => return command
  | redirections, .subshell line body _ => return .subshell line body redirections
  | redirections, command => return .redirected line command redirections

/-- A command. -/
def command (inner : Inner) : Parser Command := do
  let nested := nestedIn inner
  let line := (← get).line
  let closed (command : Command) (closing : Token) : Parser Command := do
    require nested closing
    withRedirections nested line command
  match ← token nested with
  | .keyword "if" => closed (← choiceHere inner) (.keyword "fi")
  | .keyword "while" =>
    let condition ← listOf inner
    require nested (.keyword "do")
    closed (.loop false condition (← listOf inner)) (.keyword "done")
  | .keyword "until" =>
    let condition ← listOf inner
    require nested (.keyword "do")
    closed (.loop true condition (← listOf inner)) (.keyword "done")
  | .keyword "for" => closed (← eachHere inner line) (.keyword "done")
  | .keyword "case" => withRedirections nested line (← selectHere inner line)
  | .sign "(" => closed (.subshell line (← listOf inner) []) (.sign ")")
  | .keyword "\x7b" => closed (← listOf inner) (.keyword "\x7d")
  | .word | .redirection => pushBack; simple inner
  | _ => unexpected none

/-- Commands joined by pipes. -/
def pipeline (inner : Inner) : Parser Command := do
  let nested := nestedIn inner
  let isNegated := (← token nested) = .keyword "!"
  if isNegated then expect atCommand else pushBack
  let commands ← repeatUntil [] (fun (commands : List Command) => do
    let commands := (← command inner) :: commands
    if (← token nested) = .sign "|" then
      expect atLaterCommand
      return .again commands
    return .done commands) []
  pushBack
  let whole := match commands with
    | [command] => command
    | commands => .pipeline commands.reverse false
  return if isNegated then .negated whole else whole

/-- Pipelines of which the later ones depend on how the earlier ones end. -/
def joined (inner : Inner) : Parser Command := do
  let nested := nestedIn inner
  let first ← pipeline inner
  repeatUntil first (fun (before : Command) => do
    match ← token nested with
    | .sign "&&" => expect atLaterCommand; return .again (.both before (← pipeline inner))
    | .sign "||" => expect atLaterCommand; return .again (.either before (← pipeline inner))
    | _ => pushBack; return .done before) first

/-- A command that is not waited for. -/
def inBackground : Command → Command
  | .pipeline commands _ => .pipeline commands true
  | .redirected line body redirections => .background line body redirections
  | command => .background 0 command []

/-- The command with another one behind it. -/
def followedBy (before : Option Command) (command : Command) : Command :=
  match before with
  | none => command
  | some before => .sequence before command

/-- What a list of commands is for. -/
inductive Extent where
  /-- The commands of a line. -/
  | line
  /-- Commands inside of other ones, at least one if `mayBeEmpty` is false. -/
  | inside (mayBeEmpty : Bool)
  deriving DecidableEq, Repr

/-- A list of commands: the commands of a line, or those inside of another command. -/
def list (inner : Inner) (extent : Extent) : Parser (Option Command) := do
  let nested := nestedIn inner
  let isLine := decide (extent = .line)
  repeatUntil none (fun (before, mayEnd) => do
    expect { atCommand with newlines := !isLine }
    let found ← token nested
    if found = .newline then
      readDocuments nested
      return .done before
    if found = .endOfFile then
      readDocuments nested
      modify fun l => { l with isPushedBack := true, token := .endOfFile }
      return .done before
    pushBack
    if mayEnd && !isLine && closingTokens.contains found then return .done before
    let command ← joined inner
    let separator ← token nested
    let command := if separator = .sign "&" then inBackground command else command
    let now := some (followedBy before command)
    match separator with
    | .endOfFile =>
      readDocuments nested
      modify fun l => { l with isPushedBack := true, token := .endOfFile }
      return .done now
    | .newline => pushBack; return .again (now, true)
    | .sign "&" | .sign ";" => return .again (now, true)
    | _ =>
      if isLine then unexpected none
      pushBack
      return .done now) (none, decide (extent = .inside true))

/-- A part of a command, with parts nested in it to a depth of less than `n`. -/
def part : Nat → Inner
  | 0, _ => unexpected none
  | n + 1, .list mayBeEmpty => list (part n) (.inside mayBeEmpty)
  | n + 1, .command => return some (← command (part n))
  | n + 1, .substitution isClosed => do
    let body ← list (part n) (.inside true)
    if isClosed then require (nestedIn (part n)) (.sign ")")
    return body

/-- A bound on how deep commands are nested. -/
def nestingLimit : Nat := Nat.pow 2 60

/-- What a text comes to as one complete command. -/
inductive Complete where
  | command (command : Option Command)
  | endOfFile

/-- The next complete command. -/
def complete : Parser Complete := do
  modify fun l => { l with isPushedBack := false, expected := {}, pending := [] }
  let command ← list (part nestingLimit) .line
  let l ← get
  if command.isNone && l.isPushedBack && l.token = .endOfFile then return .endOfFile
  return .command command

end Parser

end AheadOfTime.Shell
