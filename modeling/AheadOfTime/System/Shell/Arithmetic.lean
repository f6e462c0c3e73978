import AheadOfTime.System.Shell.Syntax
import AheadOfTime.System.Number

/-! # Arithmetic

    Expressions over whole numbers of 64 bits, with the usual operators in the usual
    order of precedence, and assignments to variables.  A truth value is one or zero.
    An expression is read into a tree, and only those parts of the tree that its value
    depends on are evaluated. -/

namespace AheadOfTime.Shell.Arithmetic

/-- What is wrong with an expression. -/
inductive Complaint where
  | expecting (what : String)
  | divisionByZero
  /-- The only quotient of numbers of 64 bits that has more. -/
  | overflow
  | illegalNumber (text : Octets)
  deriving DecidableEq, Repr

/-- A complaint about an expression in words. -/
def Complaint.message (expression : Octets) : Complaint → Octets
  | expecting what => about ("expecting " ++ what)
  | divisionByZero => about "division by zero"
  | overflow => about "overflow"
  | illegalNumber text => "Illegal number: " ++ text
where
  /-- The words about the whole expression. -/
  about (reason : String) : Octets :=
    "arithmetic expression: " ++ reason ++ ": \"" ++ expression ++ "\""

/-- An expression. -/
inductive Expression where
  | number (n : Int)
  | name (name : Octets)
  | unary (sign : String) (side : Expression)
  | binary (sign : String) (left right : Expression)
  | choice (condition yes no : Expression)
  /-- The name gets the value, or what the sign makes of its own value and that one. -/
  | assign (name : Octets) (sign : Option String) (value : Expression)
  deriving Repr

/-- A piece of a written expression. -/
inductive Token where
  | number (n : Int)
  | name (name : Octets)
  | sign (text : String)
  deriving DecidableEq, Repr

/-- The operators with two sides, those that bind least first. -/
def levels : List (List String) :=
  [["||"], ["&&"], ["|"], ["^"], ["&"], ["==", "!="], ["<=", ">=", "<", ">"], ["<<", ">>"],
    ["+", "-"], ["*", "/", "%"]]

/-- The signs of assignments, with the operator that they apply. -/
def assignments : List (String × Option String) :=
  ("=", none) :: ["<<", ">>", "|", "^", "&", "+", "-", "*", "/", "%"].map fun sign =>
    (sign ++ "=", some sign)

/-- All signs, longer ones before those that they start with. -/
def signs : List String :=
  (assignments.map Prod.fst).drop 1 ++
    ["||", "&&", "==", "!=", "<=", ">=", "<<", ">>", "|", "^", "&", "<", ">", "+", "-", "*", "/",
      "%", "!", "~", "?", ":", "(", ")", "="]

/-- The pieces of an expression of at most the given length. -/
def tokens : Nat → List Char → List Token
  | 0, _ => []
  | _, [] => []
  | n + 1, c :: rest =>
    if Number.isBlank c then tokens n rest
    else if c.isAlpha || c == '_' then
      let word := (c :: rest).takeWhile fun c => c.isAlphanum || c == '_'
      .name (String.ofList word) :: tokens n ((c :: rest).drop word.length)
    else match Number.leadingNatural? (c :: rest) with
      | some (value, rest) => .number (Number.clamp value) :: tokens n rest
      | none =>
        let sign := (signs.find? fun sign => sign.toList.isPrefixOf (c :: rest)).getD
          (String.singleton c)
        .sign sign :: tokens n ((c :: rest).drop sign.length)

/-- A reader of expressions. -/
abbrev Reader := StateT (List Token) (Except Complaint)

/-- Requires a sign and skips it. -/
def expectSign (sign : String) : Reader Unit := do
  match ← get with
  | .sign found :: rest =>
    if found = sign then set rest else throw (.expecting ("'" ++ sign ++ "'"))
  | _ => throw (.expecting ("'" ++ sign ++ "'"))

mutual

/-- An assignment, or an expression without one. -/
def assignment : Nat → Reader Expression
  | 0 => throw (.expecting "primary")
  | n + 1 => do
    match ← get with
    | .name name :: .sign sign :: rest =>
      match assignments.lookup sign with
      | some operator =>
        set rest
        return .assign name operator (← assignment n)
      | none => choice n
    | _ => choice n

/-- A choice between two expressions, or an expression without one. -/
def choice : Nat → Reader Expression
  | 0 => throw (.expecting "primary")
  | n + 1 => do
    let condition ← operation n levels
    match ← get with
    | .sign "?" :: rest =>
      set rest
      let yes ← assignment n
      expectSign ":"
      return .choice condition yes (← choice n)
    | _ => return condition

/-- An expression made with the operators of some levels. -/
def operation : Nat → List (List String) → Reader Expression
  | 0, _ => throw (.expecting "primary")
  | n + 1, [] => operand n
  | n + 1, level :: higher => do further n level higher (← operation n higher)

/-- What the operators of one level make of an expression. -/
def further : Nat → List String → List (List String) → Expression → Reader Expression
  | 0, _, _, _ => throw (.expecting "primary")
  | n + 1, level, higher, left => do
    match ← get with
    | .sign sign :: rest =>
      if level.contains sign then
        set rest
        further n level higher (.binary sign left (← operation n higher))
      else return left
    | _ => return left

/-- An expression without operators between two sides. -/
def operand : Nat → Reader Expression
  | 0 => throw (.expecting "primary")
  | n + 1 => do
    match ← get with
    | .number k :: rest => set rest; return .number k
    | .name name :: rest => set rest; return .name name
    | .sign "(" :: rest =>
      set rest
      let inner ← assignment n
      expectSign ")"
      return inner
    | .sign sign :: rest =>
      if ["-", "+", "!", "~"].contains sign then
        set rest
        return .unary sign (← operand n)
      else throw (.expecting "primary")
    | [] => throw (.expecting "primary")

end

/-- The expression that a text writes. -/
def Expression.ofText (text : Octets) : Except Complaint Expression := do
  let pieces := tokens text.length text.toList
  let (expression, rest) ← (assignment (16 * (pieces.length + 1))).run pieces
  if rest.isEmpty then return expression else throw (.expecting "EOF")

/-- A truth value as a number. -/
def truth (b : Bool) : Int := if b then 1 else 0

/-- What an operator in front of its only side gives. -/
def applyUnary (sign : String) (a : Int) : Int :=
  match sign with
  | "-" => Number.wrap (-a)
  | "!" => truth (a == 0)
  | "~" => -a - 1
  | _ => a

/-- Makes sure that a number can be divided by another one. -/
def divides (a b : Int) : Except Complaint Unit := do
  if b = 0 then throw .divisionByZero
  if a = Number.least ∧ b = -1 then throw .overflow

/-- What an operator between two sides gives. -/
def applyBinary (sign : String) (a b : Int) : Except Complaint Int :=
  match sign with
  | "||" => return truth (a ≠ 0 || b ≠ 0)
  | "&&" => return truth (a ≠ 0 && b ≠ 0)
  | "|" => return Number.wrap (Number.bits a ||| Number.bits b : Nat)
  | "^" => return Number.wrap (Number.bits a ^^^ Number.bits b : Nat)
  | "&" => return Number.wrap (Number.bits a &&& Number.bits b : Nat)
  | "==" => return truth (a == b)
  | "!=" => return truth (a != b)
  | "<=" => return truth (a ≤ b)
  | ">=" => return truth (b ≤ a)
  | "<" => return truth (a < b)
  | ">" => return truth (b < a)
  | "<<" => return Number.wrap (a * Int.pow 2 (b % 64).toNat)
  | ">>" => return Int.fdiv a (Int.pow 2 (b % 64).toNat)
  | "+" => return Number.wrap (a + b)
  | "-" => return Number.wrap (a - b)
  | "*" => return Number.wrap (a * b)
  | "/" => do divides a b; return Int.tdiv a b
  | _ => do divides a b; return Int.tmod a b

/-- Variables with the numbers that have been assigned to them, the last one first. -/
abbrev Assigned := List (Octets × Int)

/-- The value of a name: what has been assigned, or the number that its text writes; a
    text of blanks is zero. -/
def valueOf (textOf : Octets → Octets) (name : Octets) :
    StateT Assigned (Except Complaint) Int := do
  match (← get).lookup name with
  | some n => return n
  | none =>
    let text := textOf name
    if text.toList.all Number.isBlank then return 0
    match Number.integer? text.toList with
    | some n => return n
    | none => throw (.illegalNumber text)

/-- The value of an expression, given the texts that names have before it. -/
def Expression.value (textOf : Octets → Octets) :
    Expression → StateT Assigned (Except Complaint) Int
  | number n => return n
  | name x => valueOf textOf x
  | unary sign side => return applyUnary sign (← side.value textOf)
  | binary sign left right => do
    let a ← left.value textOf
    if sign = "&&" ∧ a = 0 then return 0
    if sign = "||" ∧ a ≠ 0 then return 1
    applyBinary sign a (← right.value textOf)
  | choice condition yes no => do
    if (← condition.value textOf) ≠ 0 then yes.value textOf else no.value textOf
  | assign x sign e => do
    let given ← e.value textOf
    let new ← match sign with
      | some sign => applyBinary sign (← valueOf textOf x) given
      | none => pure given
    modify fun assigned => (x, new) :: assigned
    return new

/-- The value of a written expression, and what it assigns, the last assignment first. -/
def evaluate (textOf : Octets → Octets) (text : Octets) :
    Except Complaint (Int × Assigned) := do
  ((← Expression.ofText text).value textOf).run []

end AheadOfTime.Shell.Arithmetic
