import AheadOfTime.System.Shell.Arithmetic
import AheadOfTime.System.Shell.Field
import AheadOfTime.System.Shell.Pathname
import AheadOfTime.System.Shell.Variables

/-! # Expanding words

    Replacing the parameters, substitutions and arithmetic in a word by what they stand
    for.  How the commands of a substitution are run is left to a parameter. -/

namespace AheadOfTime.Shell

/-- How a word is expanded. -/
structure Manner where
  /-- The word becomes fields, so parameters that are lists stay apart. -/
  isFull : Bool := false
  isQuoted : Bool := false
  /-- The word belongs to an operation on a parameter, so what it holds may be split. -/
  isOperand : Bool := false
  /-- The word is an assignment, so a tilde may follow a colon or the first equals sign. -/
  isAssignment : Bool := false
  /-- Nothing of the word is needed. -/
  isIdle : Bool := false
  deriving DecidableEq, Repr

/-- How the commands of a substitution are run; answers what they have printed. -/
abbrev Substitute := Command → Script Octets

/-- A computation on a word that is being expanded. -/
abbrev Expander := StateT Expansion Script

namespace Expander

/-- The place that has been reached. -/
def here : Expander Nat := return (← get).glyphs.size

/-- Adds octets, unless nothing is needed. -/
def emit (m : Manner) (octets : Octets) : Expander Unit :=
  unless m.isIdle do modify fun e => e.pushText m.isQuoted octets

/-- What octets a parameter stands for: nothing, a text, or a list of texts with what
    stands between them. -/
inductive Worth where
  | none
  | text (text : Octets)
  | list (texts : List Octets) (between : Option Char)

/-- What is between the texts of a list: the first separator of fields, if there is one. -/
def firstSeparator : Script (Option Char) := return (← Script.separators).toList.head?

/-- What a parameter stands for. -/
def worth (m : Manner) (name : Octets) : Script Worth := do
  let s ← get
  match name with
  | "$" => return .text (toString s.number)
  | "?" => return .text (toString s.status)
  | "#" => return .text (toString s.parameters.length)
  | "-" => return .text s.options.shown
  | "!" => return match s.lastBackground with
    | some n => .text (toString n)
    | none => .none
  | "@" =>
    if m.isFull then return .list s.parameters (some '\x00')
    return .list s.parameters (← firstSeparator)
  | "*" =>
    if m.isFull && !m.isQuoted then return .list s.parameters (some '\x00')
    return .list s.parameters (← firstSeparator)
  | name => match Number.decimal? name.toList with
    | some 0 => return .text s.name
    | some n => return match s.parameters[n - 1]? with
      | some text => .text text
      | none => .none
    | none => return match ← Script.valueOf? name with
      | some text => .text text
      | none => .none
/-- Adds what a parameter stands for, and answers how many octets that are. -/
def emitWorth (m : Manner) : Worth → Expander (Option Nat)
  | .none => return none
  | .text text => do
    emit m text
    return some text.length
  | .list texts between => do
    let joint := match between with
      | some c => String.singleton c
      | none => ""
    let rec go : List Octets → Expander Nat
      | [] => return 0
      | text :: rest => do
        emit m text
        if rest.isEmpty then return text.length
        emit { m with isQuoted := m.isQuoted && joint ≠ "\x00" } joint
        return text.length + joint.length + (← go rest)
    return some (← go texts)

/-- Breaks off since a parameter has no value. -/
def stopUnset (name message : Octets) : Expander α :=
  (Script.stop (name ++ ": " ++ message) : Script α)

/-- The directories of some users. -/
def homes : List (Octets × Octets) :=
  [("root", "/root"), ("daemon", "/usr/sbin"), ("bin", "/bin"), ("sys", "/dev"),
    ("sync", "/bin"), ("games", "/usr/games"), ("man", "/var/cache/man"),
    ("lp", "/var/spool/lpd"), ("mail", "/var/mail"), ("news", "/var/spool/news"),
    ("uucp", "/var/spool/uucp"), ("proxy", "/bin"), ("www-data", "/var/www"),
    ("backup", "/var/backups"), ("list", "/var/list"), ("irc", "/run/ircd"),
    ("_apt", "/nonexistent"), ("nobody", "/nonexistent")]

/-- Replaces a tilde at the start of a word and the name of a user behind it; answers
    the rest of the word. -/
def tilde (m : Manner) (word : Word) : Expander Word := do
  let ends (c : Char) : Bool := c == '/' || c == ':' && m.isAssignment
  match word with
  | .char '~' false :: rest =>
    let name := rest.takeWhile fun
      | .char c false => !ends c
      | .char _ true | .quote => false
      | _ => true
    let after := rest.drop name.length
    let isWhole := name.all fun
      | .char _ _ => true
      | _ => false
    match isWhole, after with
    | true, [] | true, .char _ false :: _ =>
      if m.isIdle then return after
      let user := plainText name
      let home ← if user = "" then Script.valueOf? "HOME" else pure (homes.lookup user)
      match home with
      | some home => emit { m with isQuoted := true } home; return after
      | none => return word
    | _, _ => return word
  | _ => return word

/-- Replaces the newlines at the end by nothing, as far as they lie behind a place. -/
def dropNewlines (start : Nat) : Expander Unit := modify fun e =>
  let added := (e.glyphs.extract start e.glyphs.size).toList.reverse.dropWhile fun
    | .char '\n' _ => true
    | _ => false
  { e with glyphs := e.glyphs.extract 0 (start + added.length) }

/-- How many octets are left at the start or the end of a text, in which NULs separate
    texts of their own, when the part that a pattern describes is cut off. -/
def trimmed (operation : Operation) (pattern text : List Char) : Option (Nat × Nat) :=
  let length := text.length
  let isFirst (c : Char) : Bool := c ≠ '\x00'
  let first := (text.takeWhile isFirst).length
  let describesFirst (n : Nat) : Bool := Pattern.describes pattern (text.take (min n first))
  let describesFrom (n : Nat) : Bool :=
    Pattern.describes pattern ((text.drop n).takeWhile isFirst)
  match operation with
  | .trimStart false =>
    ((List.range (first + 1)).find? describesFirst).map fun n => (n, length)
  | .trimStart true =>
    ((List.range (length + 1)).reverse.find? describesFirst).map fun n => (n, length)
  | .trimEnd false =>
    ((List.range (length + 1)).reverse.find? describesFrom).map fun n => (0, n)
  | .trimEnd true => ((List.range (first + 1)).find? describesFrom).map fun n => (0, n)
  | _ => none

/-- Cuts off a part of what has been added behind a place. -/
def trim (start : Nat) (operation : Operation) (pattern : List Char) : Expander Unit :=
  modify fun e =>
    let added := e.glyphs.extract start e.glyphs.size
    let text := added.toList.map fun
      | .char c _ => c
      | .quote => ' '
    match trimmed operation pattern text with
    | some (from_, to_) => { e with
        glyphs := e.glyphs.extract 0 start ++ added.extract from_ to_ }
    | none => e

/-- Evaluates an expression, and gives variables the values it assigns to them. -/
def evaluate (expression : Octets) : Script Int := do
  let bindings := (← get).bindings
  let textOf (name : Octets) : Octets := ((bindings.lookup name) >>= Variable.value).getD ""
  match Arithmetic.evaluate textOf expression with
  | .ok (result, assigned) =>
    for (name, value) in assigned.reverse do
      Script.assign name (toString value)
    return result
  | .error .overflow =>
    let _ ← Script.ask (.signal (← Script.ask .identity).1 8)
    Script.stop (Arithmetic.Complaint.overflow.message expression)
  | .error complaint => Script.stop (complaint.message expression)

/-- Where the run of plain characters at the start of a word ends: in front of what is
    something else, or behind a sign in an assignment that a tilde may follow; answers
    its length and that sign. -/
def plainRun (isAssignment sawEquals : Bool) : Word → Nat × Option Char
  | .char c false :: rest =>
    if isAssignment && (c == ':' || c == '=' && !sawEquals) then (1, some c)
    else
      let (n, sign) := plainRun isAssignment sawEquals rest
      (n + 1, sign)
  | _ => (0, none)

mutual

/-- Adds what a word stands for, which may start with a tilde. -/
def word (substitute : Substitute) : Nat → Manner → Bool → Word → Expander Unit
  | 0, _, _, _ => return ()
  | n + 1, m, mayStartWithTilde, pieces => do
    let rest ← if mayStartWithTilde then tilde m pieces else pure pieces
    pieceLoop substitute n m rest

/-- Adds what the pieces of a word stand for. -/
def pieceLoop (substitute : Substitute) : Nat → Manner → Word → Expander Unit
  | 0, _, _ => return ()
  | n + 1, m, pieces => do
    let step : Word × Bool × Bool → Expander (Round (Word × Bool × Bool) Unit) :=
      fun (pieces, inQuotes, sawEquals) => do
        let m := { m with isQuoted := m.isQuoted || inQuotes }
        match pieces with
        | [] => return .done ()
        | .char c true :: rest =>
          emit { m with isQuoted := true } (String.singleton c)
          return .again (rest, inQuotes, sawEquals)
        | .char _ false :: _ =>
          let (length, sign) := plainRun m.isAssignment sawEquals pieces
          let start ← here
          unless m.isIdle do
            modify fun e => e.pushText false (plainText (pieces.take length))
            if m.isOperand && !m.isQuoted then modify fun e => e.mark start false
          let rest := pieces.drop length
          let rest ← if sign.isSome then tilde m rest else pure rest
          return .again (rest, inQuotes, sawEquals || sign == some '=')
        | .quote :: rest =>
          match inQuotes, rest with
          | false, .parameter "@" .plain false [] :: .quote :: rest =>
            parameter substitute n { m with isQuoted := true } "@" .plain false []
            return .again (rest, inQuotes, sawEquals)
          | _, _ =>
            unless m.isIdle do modify fun e => e.push .quote
            return .again (rest, !inQuotes, sawEquals)
        | .parameter name operation emptyToo inner :: rest =>
          parameter substitute n m name operation emptyToo inner
          return .again (rest, inQuotes, sawEquals)
        | .substitution body :: rest =>
          substitution substitute m body
          return .again (rest, inQuotes, sawEquals)
        | .arithmetic expression :: rest =>
          unless m.isIdle do
            let text ← separately substitute n {} false expression
            let result ← (evaluate text.text : Script Int)
            let start ← here
            emit m (toString result)
            unless m.isQuoted do modify fun e => e.mark start false
          return .again (rest, inQuotes, sawEquals)
    repeatUntil () step (pieces, false, false)

/-- Expands a word on its own. -/
def separately (substitute : Substitute) : Nat → Manner → Bool → Word → Expander Expansion
  | 0, _, _, _ => return {}
  | n + 1, m, mayStartWithTilde, pieces => do
    let ((), e) ← ((word substitute n m mayStartWithTilde pieces).run {} : Script _)
    return e

/-- Adds what a parameter with an operation stands for. -/
def parameter (substitute : Substitute) :
    Nat → Manner → Octets → Operation → Bool → Word → Expander Unit
  | 0, _, _, _, _, _ => return ()
  | n + 1, m, name, operation, emptyToo, inner => do
    let start ← here
    if operation = .unknown then
      if m.isIdle then return ()
      (Script.stop "Bad substitution" : Script Unit)
    let addsValue := operation ≠ .ifSet && operation ≠ .length
    let valued : Expander (Option Nat) := do
      let m' := if addsValue then m else
        { m with isIdle := true, isFull := false }
      let length ← emitWorth m' (← worth m' name)
      return match length with
        | some 0 => if emptyToo then none else some 0
        | length => length
    let record : Expander Unit := do
      unless m.isIdle do
        let isList := m.isQuoted && name = "@" && !(← getThe State).parameters.isEmpty
        if !m.isQuoted || isList then modify fun e => e.mark start isList
    let length ← valued
    let insistOn : Expander Unit := do
      if length.isNone && !m.isIdle then
        if ← (Script.has 'u' : Script Bool) then stopUnset name "parameter not set"
    match operation with
    | .plain =>
      insistOn
      if length.isSome then record
    | .length =>
      insistOn
      emit m (toString (length.getD 0))
      record
    | .orDefault =>
      word substitute n { m with isOperand := true, isIdle := m.isIdle || length.isSome } true inner
      if length.isSome then record
    | .ifSet =>
      word substitute n { m with isOperand := true, isIdle := m.isIdle || length.isNone } true inner
      if length.isNone then record
    | .orAssign =>
      if length.isSome then record
      else unless m.isIdle do
        modify fun e => e.takeTo start
        let e ← separately substitute n { m with
          isFull := false, isQuoted := false, isOperand := false, isAssignment := false } true inner
        (Script.assign name e.text : Script Unit)
        let _ ← valued
        record
    | .orStop =>
      if length.isSome then record
      else unless m.isIdle do
        let e ← separately substitute n {} true inner
        stopUnset name
          (if !inner.isEmpty then e.text
          else if emptyToo then "parameter not set or null" else "parameter not set")
    | .trimStart _ | .trimEnd _ =>
      insistOn
      unless m.isIdle || length.isNone do
        let e ← separately substitute n {} true inner
        trim start operation e.pattern
        record
    | .unknown => return ()

/-- Adds what the commands of a substitution print. -/
def substitution (substitute : Substitute) (m : Manner) (body : Option Command) :
    Expander Unit := do
  unless m.isIdle do
    let start ← here
    if let some command := body then
      let text ← (substitute command : Script Octets)
      emit m (if text.contains '\x00' then
        String.ofList (text.toList.filter (· ≠ '\x00')) else text)
      dropNewlines start
    unless m.isQuoted do modify fun e => e.mark start false

end

end Expander

/-- Deeper than the words of any script are nested. -/
def expansionLimit : Nat := Nat.pow 2 60

namespace Script

/-- Expands a word. -/
def expand (substitute : Substitute) (m : Manner) (w : Word) (mayStartWithTilde : Bool := true) :
    Script Expansion := do
  return (← (Expander.word substitute expansionLimit m mayStartWithTilde w).run {}).2

/-- The text of a word that is not split. -/
def textOf (substitute : Substitute) (w : Word) : Script Octets :=
  return (← expand substitute {} w).text

/-- The text of an assignment. -/
def assignmentText (substitute : Substitute) (w : Word) : Script Octets :=
  return (← expand substitute { isAssignment := true } w false).text

/-- The text of a here-document, or of another text that is treated as if it stood in quotes. -/
def quotedText (substitute : Substitute) (w : Word) : Script Octets :=
  return (← expand substitute { isQuoted := true } w false).text

/-- The texts that a field stands for: the paths that it describes, or else itself. -/
def fieldTexts (field : List Glyph) : Script (List Octets) := do
  if !(← has 'f') && Glyph.hasWildcard field then
    let paths ← Pathname.all (Glyph.pattern field)
    unless paths.isEmpty do return paths
  return [Glyph.text field]

/-- The texts that a word becomes when it is split. -/
def fieldsOf (substitute : Substitute) (w : Word) : Script (List Octets) := do
  let e ← expand substitute { isFull := true } w
  let texts ← (e.fields (← separators)).mapM fieldTexts
  return texts.flatten

/-- Whether a word describes a text. -/
def describes (substitute : Substitute) (w : Word) (text : Octets) : Script Bool :=
  return Pattern.describes (← expand substitute {} w).pattern text.toList

end Script

end AheadOfTime.Shell
