import AheadOfTime.System.Shell.Builtin.Basic
import AheadOfTime.System.Shell.Redirect

/-! # Running commands

    What a command does.  One function runs every kind of command; commands that stand
    inside of others are run by a function that is handed in, and in the end that is the
    function itself, with a bound on how deep commands are nested. -/

namespace AheadOfTime.Shell

/-- How a command is run. -/
structure Setting where
  /-- Somebody looks at the status, so that a failure does not end the script. -/
  isTested : Bool := false
  /-- The process ends with the command. -/
  exits : Bool := false
  deriving DecidableEq, Repr

/-- How commands are run that stand inside of others. -/
abbrev Evaluator := Setting → Command → Script Unit

namespace Script

/-- The next complete command of a text. -/
def readCommand (l : Lexer) : Script (Parser.Complete × Lexer) := do
  let s ← get
  let start := { l with aliases := s.aliases, documents := [], nextDocument := s.nextDocument }
  match Parser.complete.run start with
  | .ok (complete, l) =>
    set { s with
      documents := l.documents ++ s.documents
      nextDocument := l.nextDocument
      readLine := l.line }
    return (complete, l)
  | .error (mistake, l) =>
    set { s with line := l.line, readLine := l.line }
    stop ("Syntax error: " ++ mistake)

/-- Whether commands are passed over. -/
def isSkipping : Script Bool := return (← get).skip.isSome

/-- Runs the commands of a text; answers the status of the last one.  The shell outlives
    them all: none replaces it, not even the last. -/
def runText (evaluate : Evaluator) (isTested : Bool) (text : Octets) : Script Nat := do
  let outer := (← get).readLine
  let status ← repeatUntil 0 (fun ((l, status) : Lexer × Nat) => do
    let (complete, l) ← readCommand l
    match complete with
    | .endOfFile => return .done status
    | .command command =>
      command.forM (evaluate { isTested })
      let s ← get
      let status := if command.isSome then s.status else status
      if s.skip.isSome then return .done status
      return .again (l, status)) ({ input := text.toList }, 0)
  modify fun s => { s with readLine := outer }
  return status

/-- Runs the actions on the signals that have come. -/
def runTraps (evaluate : Evaluator) : Script Unit := do
  collectSignals
  let s ← get
  unless s.arrived.isEmpty do
    let status := s.savedStatus.getD s.status
    set { s with savedStatus := some status }
    for signal in s.arrived.mergeSort do
      unless ← isSkipping do
        modify fun s => { s with arrived := s.arrived.filter (· ≠ signal) }
        if let some action := (← get).traps.lookup signal then
          discard (runText evaluate false action)
          unless (← get).skip == some .finish do setStatus status
    modify fun after => { after with savedStatus := s.savedStatus }

/-- Puts right what the end of a process, or a jump to it, leaves behind. -/
def settle (jump : Option Jump) : Script Unit := do
  let s ← get
  let isMeant := jump == some .exit || s.skip == some .finishAsIs
  set { s with
    status := if isMeant then s.savedStatus.getD s.status else s.status
    savedStatus := none, skip := none, loops := 0, isTracing := false, commandName := none }
  unwindRedirections 0

/-- Runs the action for the end of a script, and ends its process. -/
def finish (evaluate : Evaluator) : Script Unit := do
  modify fun s => { s with savedStatus := some s.status }
  let jump ← match (← get).traps.lookup 0 with
    | none => pure (some Jump.exit)
    | some action =>
      modify fun s => { s with
        traps := s.traps.filter fun entry => entry.1 ≠ 0
        skip := none }
      try
        discard (runText evaluate false action)
        modify fun s => { s with skip := some .finishAsIs }
        pure none
      catch jump => pure (some jump)
  settle jump
  flush
  exit (← get).status

/-- Runs what a process has to do, and ends it. -/
def runProcess (evaluate : Evaluator) (act : Script Unit) : Script Unit := do
  try act catch jump => settle (some jump)
  finish evaluate

/-- Makes this process a subshell and runs what it has to do. -/
def runSubshell (evaluate : Evaluator) (act : Script Unit) : Script Unit := do
  modify fun s => { s with isInner := true, redirected := [], jobs := [] }
  resetTraps
  runProcess evaluate act

/-- What a process in the background does not do: it heeds no interruptions, and it
    reads nothing. -/
def detach (isFirst : Bool) : Script Unit := do
  ignoreSignal Signal.interrupt
  ignoreSignal Signal.quit
  if isFirst then
    let _ ← ask (.close 0)
    discard (ask (.openFile "/dev/null" .input))

/-- What the commands of a substitution print. -/
def substitute (evaluate : Evaluator) : Substitute := fun command => do
  let (reading, writing) ← ask .pipe
  let job ← newJob
  let process ← start <| runSubshell evaluate do
    let _ ← ask (.close reading)
    unless writing = 1 do
      let _ ← ask (.duplicateTo writing 1)
      discard (ask (.close writing))
    evaluate { exits := true } command
  addProcess job process
  let _ ← ask (.close writing)
  let text ← ExceptT.lift (StateT.lift (Task.readAll reading))
  let _ ← ask (.close reading)
  let status ← awaitJob job
  modify fun s => { s with substituted := status }
  return (text.toOption).getD ""

/-- Runs commands joined by pipes. -/
def runPipeline (evaluate : Evaluator) (setting : Setting) (commands : List Command)
    (isBackground : Bool) : Script Unit := do
  let job ← newJob
  let count := commands.length
  let mut source : Option Nat := none
  let mut isFirst := true
  for (command, i) in commands.zipIdx do
    if let .simple _ _ (word :: _) _ := command then
      let name := plainText word
      if isName name && name.length = word.length then discard (find {} name)
    let isLast := i + 1 == count
    let ends ← if isLast then pure none else do pure (some (← ask .pipe))
    let before := source
    let first := isFirst
    let process ← start <| runSubshell evaluate do
      if isBackground then detach first
      if let some (reading, _) := ends then discard (ask (.close reading))
      if let some reading := before then
        unless reading = 0 do
          let _ ← ask (.duplicateTo reading 0)
          discard (ask (.close reading))
      if let some (_, writing) := ends then
        unless writing = 1 do
          let _ ← ask (.duplicateTo writing 1)
          discard (ask (.close writing))
      evaluate { setting with exits := true } command
    addProcess job process
    if isBackground then modify fun s => { s with lastBackground := some process }
    if let some reading := before then discard (ask (.close reading))
    if let some (_, writing) := ends then discard (ask (.close writing))
    source := ends.map Prod.fst
    isFirst := false
  if isBackground then
    makePresent job
    setStatus 0
  else setStatus (← awaitJob job)

/-- Runs a command in a process of its own. -/
def runApart (evaluate : Evaluator) (setting : Setting) (line : Nat) (body : Command)
    (redirections : List Redirection) (isBackground : Bool) : Script Unit := do
  modify fun s => { s with line }
  let targets ← redirections.mapM (targetOf (substitute evaluate))
  let act (setting : Setting) : Script Unit := do
    redirect (substitute evaluate) false targets
    evaluate setting body
  if !isBackground && setting.exits && !(← hasTraps) then act setting
  else
    let job ← newJob
    let process ← start <| runSubshell evaluate do
      if isBackground then detach true
      act { isTested := setting.isTested && !isBackground, exits := true }
    addProcess job process
    if isBackground then
      modify fun s => { s with lastBackground := some process }
      makePresent job
      setStatus 0
    else setStatus (← awaitJob job)

/-- Ends a round of a loop; answers whether the loop ends. -/
def endRound : Script Bool := do
  match (← get).skip with
  | none => return false
  | some (.leave n) =>
    modify fun s => { s with skip := if n ≤ 1 then none else some (.leave (n - 1)) }
    return true
  | some (.again n) =>
    modify fun s => { s with skip := if n ≤ 1 then none else some (.again (n - 1)) }
    return 1 < n
  | some _ => return true

/-- Runs the body of a loop as long as its condition says so. -/
def runLoop (evaluate : Evaluator) (setting : Setting) (untilTrue : Bool)
    (condition body : Command) : Script Unit := do
  modify fun s => { s with loops := s.loops + 1 }
  let status ← repeatUntil 0 (fun (status : Nat) => do
    evaluate { isTested := true } condition
    let held := (← get).status = 0
    let s ← get
    if s.skip.isSome then
      let status := if s.skip == some .finish then s.status else status
      if ← endRound then return .done status else return .again status
    if held == untilTrue then return .done status
    evaluate { isTested := setting.isTested } body
    let status := (← get).status
    if ← endRound then return .done status else return .again status) 0
  modify fun s => { s with loops := s.loops - 1 }
  setStatus status

/-- Runs the body of a loop for every text of some words. -/
def runEach (evaluate : Evaluator) (setting : Setting) (line : Nat) (name : Octets)
    (words : List Word) (body : Command) : Script Unit := do
  modify fun s => { s with line }
  let values ← words.mapM (fieldsOf (substitute evaluate))
  modify fun s => { s with loops := s.loops + 1 }
  let status ← repeatUntil 0 (fun ((values, status) : List Octets × Nat) => do
    match values with
    | [] => return .done status
    | value :: later =>
      assign name value
      evaluate { isTested := setting.isTested } body
      let status := (← get).status
      if ← endRound then return .done status else return .again (later, status))
    (values.flatten, 0)
  modify fun s => { s with loops := s.loops - 1 }
  setStatus status

/-- Runs the first arm with a pattern that describes a text; answers whether it sets a status. -/
def runSelect (evaluate : Evaluator) (setting : Setting) (line : Nat) (subject : Word)
    (arms : List (List Word × Option Command)) : Script Unit := do
  modify fun s => { s with line }
  let text ← textOf (substitute evaluate) subject
  let rec find? : List (List Word × Option Command) → Script (Option (Option Command))
    | [] => return none
    | (patterns, body) :: later => do
      if ← patterns.anyM fun pattern => describes (substitute evaluate) pattern text then
        return some body
      find? later
  match ← find? arms with
  | some (some body) =>
    unless ← isSkipping do evaluate setting body
  | _ => setStatus 0

/-- What a simple command starts with: the texts that its first words have become, the
    words that are still to be expanded, and what is known of the builtin that the first
    text names. -/
structure Lead where
  texts : List Octets
  words : List Word
  /-- What the words in front of the command's name have become. -/
  shown : List Octets := []
  kind : Option BuiltinKind := none
  declares : Bool := false
  isExec : Bool := false
  passesFunctions : Bool := false
  searchPath : Option Octets := none

/-- Expands words up to the first one that becomes something. -/
def firstTexts (expand : Word → Script (List Octets)) :
    List Word → Script (List Octets × List Word)
  | [] => return ([], [])
  | word :: later => do
    match ← expand word with
    | [] => firstTexts expand later
    | texts => return (texts, later)

/-- Goes past the word `command` and its options to the command that follows; answers
    nothing if the builtin itself is meant. -/
def pastCommand (expand : Word → Script (List Octets)) (lead : Lead) :
    Script (Lead × Bool) := do
  let more (lead : Lead) : Script Lead := do
    if lead.texts.isEmpty then
      let (texts, words) ← firstTexts expand lead.words
      return { lead with texts, words }
    return lead
  let whole (passed : Lead) (isFound : Bool) : Lead × Bool :=
    let gone := lead.texts.take 1 ++ passed.shown.drop (lead.shown.length + 1)
    if isFound then (passed, true)
    else ({ lead with texts := gone ++ passed.texts, words := passed.words }, false)
  let pass (lead : Lead) : Lead :=
    { lead with shown := lead.shown ++ lead.texts.take 1, texts := lead.texts.drop 1 }
  repeatUntil (lead, false) (fun (passed : Lead) => do
    let passed ← more passed
    match passed.texts with
    | [] => return .done (whole passed false)
    | "--" :: _ =>
      let passed ← more (pass passed)
      return .done (whole passed (!passed.texts.isEmpty))
    | text :: _ =>
      match text.toList with
      | '-' :: c :: cs =>
        if (c :: cs).all (· = 'p') then
          return .again (pass { passed with searchPath := some Variable.defaultSearchPath })
        return .done (whole passed false)
      | _ => return .done (whole passed true)) (pass lead)

/-- Finds out what kind of command the first words name. -/
def leadOf (expand : Word → Script (List Octets)) (words : List Word) : Script (Option Lead) := do
  let (texts, words) ← firstTexts expand words
  if texts.isEmpty then return none
  let lead ← repeatUntil { texts, words } (fun (lead : Lead) => do
    let name := lead.texts.headD ""
    match ← find { forBuiltins := true, passesFunctions := lead.passesFunctions } name with
    | .builtin =>
      let kind := (Builtin.kind? name).getD {}
      let lead := { lead with
        kind := lead.kind.or (some kind), declares := kind.declares, isExec := name == "exec" }
      if name ≠ "command" then return .done lead
      let (lead, isPassed) ← pastCommand expand lead
      if isPassed then return .again { lead with passesFunctions := true } else return .done lead
    | _ => return .done { lead with declares := false }) { texts, words }
  return some lead

/-- Shows a command before it is run, if the script asks for that. -/
def trace (evaluate : Evaluator) (texts : List Octets) : Script Unit := do
  let s ← get
  if s.options.has 'x' && !s.isTracing then
    set { s with isTracing := true }
    let label := (← valueOf? "PS4").getD ""
    let word := Parser.promptText fun _ => return none
    let shown ← match word.run { input := label.toList } with
      | .ok (word, _) =>
        try quotedText (substitute evaluate) word catch _ => pure label
      | .error _ => pure label
    let octets := shown ++ Print.spaced texts ++ "\n"
    discard (ask (.write s.traceDescriptor octets))
    modify fun s => { s with isTracing := false }

/-- Goes on as a program; if that is not possible, complains and breaks off. -/
def execute (argv : List Octets) (path : Octets) (place : Option Nat) : Script Unit := do
  let name := argv.headD ""
  let environment ← environment
  let try_ (path : Octets) : Script Refusal := do
    match ← ask (.execute path argv environment) with
    | .notExecutableFormat =>
      ask (.execute "/bin/sh" ("/bin/sh" :: path :: argv.drop 1) environment)
    | reason => return reason
  let rec tryAll (reason : Refusal) : List Octets → Script Refusal
    | [] => return reason
    | path :: later => do
      let other ← try_ path
      tryAll (if Image.isAbsence other then reason else other) later
  let reason ← if name.contains '/' then try_ name
    else tryAll .noEntry ((candidates path name).drop (place.getD 0))
  let isMissing := [Refusal.noEntry, .notDirectory, .nameTooLong, .linkLoop].contains reason
  stopWith (if isMissing then 127 else 126) .ended (name ++ ": " ++ refusalText "not found" reason)

/-- Runs a program, in a process of its own unless this one ends with it. -/
def runProgram (setting : Setting) (argv : List Octets) (path : Octets) (place : Option Nat) :
    Script Nat := do
  if setting.exits && !(← hasTraps) then
    execute argv path place
    return 0
  let job ← newJob
  let process ← start do
    try execute argv path place catch _ => pure ()
  addProcess job process
  awaitJob job

/-- The most functions that call each other. -/
def depthLimit : Nat := 1000

/-- Runs a function with its arguments. -/
def call (evaluate : Evaluator) (setting : Setting) (body : Command) (arguments : List Octets) :
    Script Unit := do
  let before ← get
  if depthLimit ≤ before.depth then
    stop ("Maximum function recursion depth (" ++ toString depthLimit ++ ") reached")
  set { before with
    parameters := arguments, optionPlace := {}, loops := 0, depth := before.depth + 1 }
  andThen (evaluate { isTested := setting.isTested } body) do
    modify fun s => { s with
      parameters := before.parameters, optionPlace := before.optionPlace
      loops := before.loops, depth := before.depth
      skip := if s.skip == some .finish || s.skip == some .finishAsIs then none else s.skip }

/-- The file that a script asks to be read. -/
def findScript (name : Octets) : Script Octets := do
  if name.contains '/' then return name
  let rec search : List Octets → Script (Option Octets)
    | [] => return none
    | path :: later => do
      if let .ok status ← ask (.statusAt path true) then
        if status.kind = .regular then return some path
      search later
  match ← search (candidates (← searchPath) name) with
  | some path => return path
  | none => stop (name ++ ": not found")

/-- How much of a script is read at once. -/
def chunkLength : Nat := 8192

/-- A script that is read from a descriptor, and whether more may come. -/
structure Source where
  lexer : Lexer := { input := [] }
  descriptor : Nat
  mayHaveMore : Bool := true

/-- The lines of a script that have been read, given what was left before and after. -/
def linesRead (before after : List Char) : Octets :=
  let text := before.take (before.length - after.length)
  let rest := if text.getLast? = some '\n' then [] else after.takeWhile (· ≠ '\n')
  let goesOn := text.getLast? ≠ some '\n' && rest.length < after.length
  String.ofList (text ++ rest ++ if goesOn then ['\n'] else [])

/-- The next complete command of a script, of which as much is read as is needed. -/
def readFrom (source : Source) : Script (Parser.Complete × Source) := do
  let source ← repeatUntil source (fun (source : Source) => do
    let s ← get
    let sees := match Parser.complete.run { source.lexer with
        aliases := s.aliases, nextDocument := s.nextDocument } with
      | .ok (_, l) => l.sawEnd
      | .error (_, l) => l.sawEnd
    if !sees || !source.mayHaveMore then return .done source
    match ← ask (.read source.descriptor chunkLength) with
    | .ok "" => return .again { source with mayHaveMore := false }
    | .ok text =>
      let more := text.toList.filter (· ≠ '\x00')
      return .again { source with
        lexer := { source.lexer with input := source.lexer.input ++ more } }
    | .error .interrupted => return .again source
    | .error _ => return .again { source with mayHaveMore := false }) source
  if ← has 'v' then
    let s ← get
    let after := match Parser.complete.run { source.lexer with
        aliases := s.aliases, nextDocument := s.nextDocument } with
      | .ok (_, l) => l.input
      | .error (_, l) => l.input
    writeMessage (linesRead source.lexer.input after)
  let (complete, lexer) ← readCommand source.lexer
  return (complete, { source with lexer })

/-- Runs the commands that come from a descriptor; answers the status of the last one. -/
def runSource (evaluate : Evaluator) (descriptor : Nat) : Script Nat := do
  repeatUntil 0 (fun ((source, status) : Source × Nat) => do
    let (complete, source) ← readFrom source
    match complete with
    | .endOfFile => return .done status
    | .command command =>
      command.forM (evaluate {})
      let s ← get
      let status := if command.isSome then s.status else status
      if s.skip.isSome then
        modify fun s => { s with
          skip := if s.skip == some .finish || s.skip == some .finishAsIs then none else s.skip }
        return .done status
      return .again (source, status)) ({ descriptor }, 0)

/-- Opens a script for reading where it is not in the way. -/
def openScript (path : Octets) : Script Nat := do
  let n ← openFile path .input
  if n < hiddenDescriptor then
    match ← ask (.duplicate n hiddenDescriptor true) with
    | .ok moved =>
      let _ ← ask (.close n)
      return moved
    | .error _ => return n
  return n

/-- Runs the commands of a file in the script itself. -/
def runFile (evaluate : Evaluator) (arguments : List Octets) : Script Nat := do
  let (_, rest) ← readOptions "" arguments
  match rest with
  | [] => return 0
  | name :: _ =>
    let path ← findScript name
    let descriptor ← openScript path
    let outer := (← get).readLine
    modify fun s => { s with commandName := some path }
    let status ← runSource evaluate descriptor
    let _ ← ask (.close descriptor)
    modify fun s => { s with readLine := outer }
    return status

/-- Runs a builtin. -/
def runBuiltin (evaluate : Evaluator) (setting : Setting) (name : Octets)
    (arguments : List Octets) : Script Unit := do
  let before := (← get).commandName
  modify fun s => { s with commandName := some name }
  let act : Script Nat := match name with
    | "eval" => do
      if arguments.isEmpty then return 0
      runText evaluate setting.isTested (Print.spaced arguments)
    | "." => runFile evaluate arguments
    | "exec" => do
      unless arguments.isEmpty do execute arguments (← searchPath) none
      return 0
    | name => match Builtin.action? name with
      | some action => action arguments
      | none => return 127
  andThen (do
    let status ← act
    flush
    let s ← get
    if s.hasLostOutput then complain (s.commandName.getD "" ++ ": I/O error")
    setStatus (if s.hasLostOutput then status ||| 1 else status)) do
    modify fun s => { s with output := "", hasLostOutput := false, commandName := before }

/-- Runs a simple command. -/
def runSimple (evaluate : Evaluator) (setting : Setting) (line : Nat)
    (assignments words : List Word) (redirections : List Redirection) : Script Unit := do
  let substitute := substitute evaluate
  modify fun s => { s with line, substituted := 0 }
  let before ← get
  let lead ← leadOf (fieldsOf substitute) words
  let start : Lead := lead.getD { texts := [], words := [] }
  let more ← start.words.mapM fun word => do
    if start.declares && isAssignment word then return [← assignmentText substitute word]
    fieldsOf substitute word
  let argv := start.texts ++ more.flatten
  let isSpecial := start.kind.any BuiltinKind.isSpecial
  let isLocal := lead.isSome && !isSpecial
  if isLocal then pushFrame
  let restore : Script Unit := do
    unwindRedirections before.redirected.length
    repeatUntil () (fun () => do
      if (← get).frames.length ≤ before.frames.length then return .done ()
      popFrame
      return .again ()) ()
    modify fun s => { s with traceDescriptor := before.traceDescriptor }
  let targets ← redirections.mapM (targetOf substitute)
  unless targets.isEmpty do pushRedirections
  modify fun s => { s with traceDescriptor := 2 }
  let isRedirected ← redirectSafely substitute targets
  let fail (status : Nat) : Script Unit := do
    setStatus status
    if isSpecial then throw .error
  if !isRedirected then fail 2
  else
    unless targets.isEmpty do
      if let some (some copy) := ((← get).redirected.headD []).lookup 2 then
        modify fun s => { s with traceDescriptor := copy }
    let values ← assignments.mapM fun word => do
      let text ← assignmentText substitute word
      if isLocal then makeLocal text true
      else
        let (name, value) := splitAssignment text
        put name { value, isExported := start.isExec && 1 < argv.length }
      return text
    trace evaluate (values ++ start.shown ++ argv)
    match argv with
    | [] => setStatus (← get).substituted
    | name :: arguments =>
      let search : Search := { passesFunctions := start.passesFunctions, complains := true
                               searchPath := start.searchPath }
      match ← find search name with
      | .unknown => fail 127
      | .program place =>
        let path ← match start.searchPath with
          | some path => pure path
          | none => searchPath
        setStatus (← runProgram setting argv path place)
      | .function body =>
        call evaluate setting body arguments
        noteEnded none
      | .builtin =>
        try runBuiltin evaluate setting name arguments catch jump =>
          if jump != .error || isSpecial then throw jump
          modify fun s => { s with readLine := before.readLine }
        noteEnded none
  unless targets.isEmpty do popRedirections start.isExec
  restore

/-- Runs a command, except that the actions on signals and the end of the process are
    left to others; answers whether a failure ends the script if it is to do so. -/
def runBody (evaluate : Evaluator) (setting : Setting) : Command → Script Bool
  | .simple line assignments words redirections => do
    runSimple evaluate setting line assignments words redirections
    return true
  | .redirected line body redirections => do
    modify fun s => { s with line }
    let targets ← redirections.mapM (targetOf (substitute evaluate))
    unless targets.isEmpty do pushRedirections
    let isRedirected ← redirectSafely (substitute evaluate) targets
    if isRedirected then evaluate { isTested := setting.isTested } body else setStatus 2
    unless targets.isEmpty do popRedirections false
    return !isRedirected
  | .subshell line body redirections => do
    runApart evaluate setting line body redirections false
    return true
  | .background line body redirections => do
    runApart evaluate setting line body redirections true
    return true
  | .pipeline commands isBackground => do
    runPipeline evaluate setting commands isBackground
    return true
  | .sequence first second => do
    evaluate { isTested := setting.isTested } first
    unless ← isSkipping do evaluate setting second
    return false
  | .both first second => do
    evaluate { isTested := true } first
    if (← get).status = 0 then unless ← isSkipping do evaluate setting second
    return false
  | .either first second => do
    evaluate { isTested := true } first
    if (← get).status ≠ 0 then unless ← isSkipping do evaluate setting second
    return false
  | .negated body => do
    evaluate { isTested := true } body
    setStatus (if (← get).status = 0 then 1 else 0)
    return false
  | .choice condition body otherwise => do
    evaluate { isTested := true } condition
    unless ← isSkipping do
      if (← get).status = 0 then evaluate setting body
      else match otherwise with
        | some body => evaluate setting body
        | none => setStatus 0
    return false
  | .loop untilTrue condition body => do
    runLoop evaluate setting untilTrue condition body
    return false
  | .each line name words body => do
    runEach evaluate setting line name words body
    return false
  | .select line subject arms => do
    runSelect evaluate setting line subject arms
    return false
  | .define _ name body => do
    forget name
    modify fun s => { s with
      functions := (name, body) :: s.functions.filter (fun entry => entry.1 ≠ name), status := 0 }
    return false

/-- Runs a command and the actions on signals that come; commands are nested to a depth
    of less than `n`. -/
def evaluate : Nat → Evaluator
  | 0, _, _ => stop "Maximum nesting reached"
  | n + 1, setting, command => do
    unless ← has 'n' do
      runTraps (evaluate n)
      let endsScript ← runBody (evaluate n) setting command
      runTraps (evaluate n)
      if endsScript && !setting.isTested && (← has 'e') && (← get).status ≠ 0 then throw .ended
    if setting.exits then throw .ended

/-- Runs a command. -/
def run : Evaluator := evaluate Parser.nestingLimit

end Script

end AheadOfTime.Shell
