import AheadOfTime.System.Shell.State

/-! # Conditions

    What `test` and `[` decide: about texts, numbers and files.  A condition is read and
    decided in one go from left to right; its words are numbered, and there is none
    behind the last one. -/

namespace AheadOfTime.Shell.Condition

/-- What a word of a condition is. -/
inductive Role where
  | operand
  | unary
  | binary
  | negation
  | conjunction
  | disjunction
  | opening
  | closing
  | finish
  deriving DecidableEq, Repr

/-- The role that a word can have as an operator. -/
def operatorRole? (word : Octets) : Option Role :=
  if ["-r", "-w", "-x", "-e", "-f", "-d", "-c", "-b", "-p", "-u", "-g", "-k", "-s", "-t", "-z",
      "-n", "-h", "-L", "-S", "-O", "-G"].contains word then some .unary
  else if ["=", "!=", "<", ">", "-eq", "-ne", "-ge", "-gt", "-le", "-lt", "-nt", "-ot",
      "-ef"].contains word then some .binary
  else [("!", Role.negation), ("-a", .conjunction), ("-o", .disjunction), ("(", .opening),
    (")", .closing)].lookup word

/-- The words of a condition, and the one that has been reached. -/
structure Reading where
  words : Array Octets
  place : Nat := 0

/-- A reader of conditions. -/
abbrev Reader := StateT Reading Script

/-- The word at a place. -/
def wordAt? (place : Nat) : Reader (Option Octets) := return (← get).words[place]?

/-- The role of the word at a place: an operator that has nothing to work on is an operand. -/
def roleAt (place : Nat) : Reader Role := do
  match ← wordAt? place with
  | none => return .finish
  | some word =>
    let next ← wordAt? (place + 1)
    match operatorRole? word with
    | none => return .operand
    | some .unary =>
      match next, ← wordAt? (place + 2) with
      | none, _ => return .operand
      | some _, none => return .unary
      | some next, some _ =>
        return if operatorRole? next = some .binary then .operand else .unary
    | some .opening => return if next.isNone then .operand else .opening
    | some role => return role

/-- Goes on to the next word and answers its role. -/
def advance : Reader Role := do
  modify fun r => { r with place := r.place + 1 }
  roleAt (← get).place

/-- The word that has been reached. -/
def current : Reader Octets := return (← wordAt? (← get).place).getD ""

/-- Breaks off with a complaint. -/
def stop (message : Octets) : Reader α := (Script.stop message : Script α)

/-- What is told about a file, if there is one. -/
def statusOf? (path : Octets) (follow : Bool) : Reader (Option FileStatus) := do
  match ← (Script.ask (.statusAt path follow) : Script _) with
  | .ok status => return some status
  | .error _ => return none

/-- What an operator says of its only side. -/
def decideUnary (sign side : Octets) : Reader Bool := do
  match sign with
  | "-z" => return side = ""
  | "-n" => return side ≠ ""
  | "-t" =>
    let _ ← (Script.integerOf side : Script Int)
    return false
  | "-h" | "-L" => return (← statusOf? side false).any fun status => status.kind == .link
  | sign =>
    return (← statusOf? side true).any fun status =>
      match sign with
      | "-f" => status.kind == .regular
      | "-d" => status.kind == .directory
      | "-c" => status.kind == .device
      | "-p" => status.kind == .fifo
      | "-s" => 0 < status.size
      | "-x" => status.kind == .directory || status.mode &&& 0o111 ≠ 0
      | "-u" => status.mode &&& 0o4000 ≠ 0
      | "-g" => status.mode &&& 0o2000 ≠ 0
      | "-k" => status.mode &&& 0o1000 ≠ 0
      | "-b" | "-S" => false
      | _ => true

/-- Whether two numbers stand as an operator says. -/
def comparison? (sign : Octets) : Option (Int → Int → Bool) :=
  match sign with
  | "-eq" => some fun a b => a == b
  | "-ne" => some fun a b => a != b
  | "-ge" => some fun a b => b ≤ a
  | "-gt" => some fun a b => b < a
  | "-le" => some fun a b => a ≤ b
  | "-lt" => some fun a b => a < b
  | _ => none

/-- What an operator says of its two sides. -/
def decideBinary (sign left right : Octets) : Reader Bool := do
  match sign with
  | "=" => return left = right
  | "!=" => return left ≠ right
  | "<" => return left < right
  | ">" => return right < left
  | sign => match comparison? sign with
    | some holds =>
      let a ← (Script.integerOf left : Script Int)
      return holds a (← (Script.integerOf right : Script Int))
    | none => match ← statusOf? left true, ← statusOf? right true with
      | some a, some b => return match sign with
        | "-nt" => b.time < a.time
        | "-ot" => a.time < b.time
        | _ => a.inode == b.inode
      | _, _ => return false

mutual

/-- Parts of which one has to hold. -/
def anyOf : Nat → Role → Reader Bool
  | 0, _ => return false
  | n + 1, role => do
    let held ← allOf n role
    if (← roleAt ((← get).place + 1)) ≠ .disjunction then return held
    let _ ← advance
    let later ← anyOf n (← advance)
    return held || later

/-- Parts that all have to hold. -/
def allOf : Nat → Role → Reader Bool
  | 0, _ => return false
  | n + 1, role => do
    let held ← single n role
    if (← roleAt ((← get).place + 1)) ≠ .conjunction then return held
    let _ ← advance
    let later ← allOf n (← advance)
    return held && later

/-- A part without operators between conditions. -/
def single : Nat → Role → Reader Bool
  | 0, _ => return false
  | n + 1, role => do
    match role with
    | .negation =>
      let next ← roleAt ((← get).place + 1)
      unless next = .finish do modify fun r => { r with place := r.place + 1 }
      return !(← single n next)
    | .finish => return false
    | .opening =>
      let inner ← advance
      if inner = .closing then return false
      let held ← anyOf n inner
      unless (← advance) = .closing do stop "closing paren expected"
      return held
    | .unary =>
      let sign ← current
      let _ ← advance
      decideUnary sign (← current)
    | _ =>
      let left ← current
      if (← roleAt ((← get).place + 1)) ≠ .binary then return left ≠ ""
      let _ ← advance
      let sign ← current
      modify fun r => { r with place := r.place + 1 }
      match ← wordAt? (← get).place with
      | none => stop (sign ++ ": argument expected")
      | some right => decideBinary sign left right

end

/-- Whether the condition holds that words write; none at all never hold. -/
def holds (words : List Octets) : Script Bool :=
  if words.isEmpty then return false else short words.length false words
where
  /-- Decides a condition that is perhaps negated; of three words the one in the middle
      counts first, and of three or four words the outer ones count next. -/
  short : Nat → Bool → List Octets → Script Bool
    | 0, _, _ => return false
    | n + 1, isNegated, words => do
      let isShort := words.length = 3 || words.length = 4
      let isBinary := words.length = 3 && (words[1]?.bind operatorRole?) == some .binary
      if isShort && !isBinary && words.head? == some "!" then short n true (words.drop 1)
      else
        let isEnclosed := words.head? == some "(" && words.getLast? == some ")"
        let held ← if isShort && !isBinary && isEnclosed then decide (words.drop 1).dropLast false
          else decide words isBinary
        return held != isNegated
  /-- Decides a condition, of which the first word is an operand if that is known. -/
  decide (words : List Octets) (isOperand : Bool) : Script Bool := do
    let act : Reader Bool := do
      let role ← if isOperand then pure Role.operand else roleAt 0
      let held ← anyOf (2 * words.length + 8) role
      let place := (← get).place
      if place + 1 < words.length then
        stop ((← current) ++ ": unexpected operator")
      return held
    return (← act.run { words := words.toArray }).1

end AheadOfTime.Shell.Condition
