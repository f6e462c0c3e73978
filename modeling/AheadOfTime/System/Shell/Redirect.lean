import AheadOfTime.System.Shell.Expand

/-! # Redirections

    Letting descriptors lead to files, to texts, and to where other descriptors lead;
    and letting them lead again where they led before. -/

namespace AheadOfTime.Shell

/-- Where a redirection leads, when its word has been expanded. -/
inductive Target where
  | file (direction : Direction) (path : Octets)
  | descriptor (number : Nat)
  | closed
  | document (number : Nat)
  deriving DecidableEq, Repr

namespace Script

/-- Expands the word of a redirection. -/
def targetOf (substitute : Substitute) : Redirection → Script (Nat × Target)
  | .mk n (.file direction path) => return (n, .file direction (← textOf substitute path))
  | .mk n (.descriptor number) => return (n, .descriptor number)
  | .mk n .closed => return (n, .closed)
  | .mk n (.document number) => return (n, .document number)
  | .mk n (.computed word) => do
    match (← textOf substitute word).toList with
    | ['-'] => return (n, .closed)
    | [d] => if d.isDigit then return (n, .descriptor (d.toNat - '0'.toNat)) else broken
    | _ => broken
where
  /-- Breaks off since a word is no descriptor. -/
  broken : Script (Nat × Target) := do
    modify fun s => { s with line := s.readLine }
    stop "Syntax error: Bad fd number"

/-- Breaks off since a file cannot be opened. -/
def stopOpening (creates : Bool) (path : Octets) (reason : Refusal) : Script α :=
  if creates then
    stop ("cannot create " ++ path ++ ": " ++ refusalText "Directory nonexistent" reason)
  else stop ("cannot open " ++ path ++ ": " ++ refusalText "No such file" reason)

/-- Opens a file. -/
def openFile (path : Octets) (mode : OpenMode) : Script Nat := do
  match ← ask (.openFile path mode) with
  | .ok n => return n
  | .error reason => stopOpening mode.creates path reason

/-- Opens a file for writing that is not to be written over. -/
def openUnlessPresent (path : Octets) : Script Nat := do
  match ← ask (.statusAt path true) with
  | .error _ => openFile path { OpenMode.output with exclusive := true, truncates := false }
  | .ok status =>
    if status.kind = .regular then stopOpening true path .alreadyExists
    openFile path { writes := true }

/-- How much of a text fits into a pipe that nobody reads yet. -/
def documentLimit : Nat := 4096

/-- Opens a text for reading; a long one is written by a process of its own. -/
def openText (text : Octets) : Script Nat := do
  let (reading, writing) ← ask .pipe
  if text.length ≤ documentLimit then discard (ask (.write writing text))
  else
    discard <| start do
      let _ ← ask (.close reading)
      let _ ← ask (.setAction Signal.pipe .default)
      let _ ← ask (.write writing text)
      exit 0
  let _ ← ask (.close writing)
  return reading

/-- Opens the target of a redirection; there is nothing to do for a descriptor that is
    redirected to itself. -/
def openTarget (substitute : Substitute) (n : Nat) : Target → Script (Option Nat)
  | .file .read path => return some (← openFile path .input)
  | .file .readWrite path =>
    return some (← openFile path { reads := true, writes := true, creates := true })
  | .file .write path => do
    if ← has 'C' then return some (← openUnlessPresent path)
    return some (← openFile path .output)
  | .file .overwrite path => return some (← openFile path .output)
  | .file .append path => return some (← openFile path .append)
  | .descriptor number => return if number = n then none else some number
  | .closed => return some 0
  | .document number => do
    let document := (← get).documents.lookup number
    match document with
    | none => return some (← openText "")
    | some document =>
      if document.isExpanded then return some (← openText (← quotedText substitute document.text))
      return some (← openText (plainText document.text))

/-- The least descriptor that a script does not use itself. -/
def hiddenDescriptor : Nat := 10

/-- Notes where a descriptor leads, and closes it. -/
def keep (n : Nat) : Script Unit := do
  match (← get).redirected with
  | [] => return ()
  | kept :: outer =>
    if (kept.lookup n).isNone then
      let saved ← ask (.duplicate n hiddenDescriptor true)
      let saved ← match saved with
        | .ok copy => do
          let _ ← ask (.close n)
          pure (some copy)
        | .error _ => pure none
      modify fun s => { s with redirected := ((n, saved) :: kept) :: outer }

/-- Notes that a descriptor was closed. -/
def keepClosed (n : Nat) : Script Unit := modify fun s =>
  match s.redirected with
  | [] => s
  | kept :: outer =>
    if (kept.lookup n).isSome then s
    else { s with redirected := ((n, none) :: kept) :: outer }

/-- Carries a redirection out; where the descriptor led before is noted if it `isUndone` later. -/
def redirectOne (substitute : Substitute) (isUndone : Bool) (n : Nat) (target : Target) :
    Script Unit := do
  match ← openTarget substitute n target with
  | none => return ()
  | some opened =>
    let isFresh := match target with
      | .file _ _ | .document _ => true
      | _ => false
    if isFresh && opened = n then
      if isUndone then keepClosed n
    else
      if isUndone then keep n
      match target with
      | .closed => discard (ask (.close n))
      | _ =>
        let moved ← ask (.duplicateTo opened n)
        if isFresh then discard (ask (.close opened))
        if let .error reason := moved then stop (toString opened ++ ": " ++ reason.text)

/-- Carries redirections out. -/
def redirect (substitute : Substitute) (isUndone : Bool) (targets : List (Nat × Target)) :
    Script Unit := do
  for (n, target) in targets do
    redirectOne substitute isUndone n target

/-- Begins redirections that are undone together. -/
def pushRedirections : Script Unit := modify fun s => { s with redirected := [] :: s.redirected }

/-- Undoes the last redirections, unless they are to last. -/
def popRedirections (lasts : Bool) : Script Unit := do
  match (← get).redirected with
  | [] => return ()
  | kept :: outer =>
    modify fun s => { s with redirected := outer }
    for (n, saved) in kept.mergeSort fun a b => a.1 ≤ b.1 do
      match saved with
      | some copy =>
        unless lasts do discard (ask (.duplicateTo copy n))
        discard (ask (.close copy))
      | none => unless lasts do discard (ask (.close n))

/-- Undoes redirections until only a number of them are left. -/
def unwindRedirections (count : Nat) : Script Unit := do
  for _ in List.range ((← get).redirected.length - count) do
    popRedirections false

/-- Carries redirections out; answers whether that was possible. -/
def redirectSafely (substitute : Substitute) (targets : List (Nat × Target)) : Script Bool :=
  try
    redirect substitute true targets
    return true
  catch
    | .error => return false
    | jump => throw jump

end Script

end AheadOfTime.Shell
