import AheadOfTime.System.Shell.Pattern
import AheadOfTime.System.Shell.State

/-! # Pathnames described by patterns

    A pattern with wildcards stands for the paths that it describes, name by name.  A
    name that starts with a dot is only described by a pattern that does so, too. -/

namespace AheadOfTime.Shell.Pathname

/-- The characters of a pattern without the backslashes that protect them. -/
def unprotected : List Char → List Char
  | '\\' :: c :: rest => c :: unprotected rest
  | c :: rest => c :: unprotected rest
  | [] => []

/-- Whether brackets that have just been opened are closed before the next slash. -/
def closes (pattern : List Char) : Bool :=
  let inner := match pattern with
    | '!' :: rest => rest
    | rest => rest
  go inner
where
  /-- Goes on behind a byte of the brackets' inside. -/
  go : List Char → Bool
    | [] => false
    | '\\' :: c :: rest => c ≠ '/' && (rest.head? == some ']' || go rest)
    | c :: rest => c ≠ '/' && (rest.head? == some ']' || go rest)

/-- A pattern cut in front of the first name with a wildcard: the names before it with
    the slash behind them, that name, and what follows the slash behind it, if there is
    one. -/
structure Cut where
  before : List Char
  name : List Char
  after : Option (List Char)

/-- Cuts a pattern, unless it has no wildcard; all lists that are passed on have their
    last character first. -/
def cutFrom (before name : List Char) (isWild : Bool) : List Char → Option Cut
  | [] => if isWild then some ⟨before.reverse, name.reverse, none⟩ else none
  | '\\' :: '/' :: rest =>
    if isWild then some ⟨before.reverse, name.reverse, some rest⟩
    else cutFrom ('/' :: '\\' :: name ++ before) [] false rest
  | '\\' :: c :: rest => cutFrom before (c :: '\\' :: name) isWild rest
  | '/' :: rest =>
    if isWild then some ⟨before.reverse, name.reverse, some rest⟩
    else cutFrom ('/' :: name ++ before) [] false rest
  | c :: rest =>
    let isWildHere := c = '*' ∨ c = '?' ∨ c = '[' ∧ closes rest = true
    cutFrom before (c :: name) (isWild || isWildHere) rest

/-- Cuts a pattern in front of the first name with a wildcard. -/
def cut? (pattern : List Char) : Option Cut := cutFrom [] [] false pattern

/-- Whether a pattern for a name describes names that start with a dot. -/
def describesHidden : List Char → Bool
  | '\\' :: c :: _ => c = '.'
  | c :: _ => c = '.'
  | [] => false

/-- The paths that a pattern describes, behind what has been found so far; at most `n`
    of its names have wildcards. -/
def described : Nat → Octets → List Char → Script (List Octets)
  | 0, _, _ => return []
  | n + 1, found, pattern => do
    match cut? pattern with
    | none =>
      if found = "" then return []
      let path := found ++ String.ofList (unprotected pattern)
      match ← Script.ask (.statusAt path false) with
      | .ok _ => return [path]
      | .error _ => return []
    | some ⟨before, name, after⟩ =>
      let directory := found ++ String.ofList (unprotected before)
      match ← Script.ask (.namesIn (if directory = "" then "." else directory)) with
      | .error _ => return []
      | .ok names =>
        let isFitting (candidate : Octets) : Bool :=
          (!candidate.startsWith "." || describesHidden name) &&
            Pattern.describes name candidate.toList
        let fitting := (("." :: ".." :: names).filter isFitting).map (directory ++ ·)
        match after with
        | none => return fitting
        | some after =>
          let paths ← fitting.mapM fun path => described n (path ++ "/") after
          return paths.flatten

/-- The paths that a pattern describes, in order. -/
def all (pattern : List Char) : Script (List Octets) := do
  return (← described (pattern.length + 1) "" pattern).mergeSort fun a b => a ≤ b

end AheadOfTime.Shell.Pathname
