import AheadOfTime.CommandLine.Run
import AheadOfTime.Proofs.Outcome

/-! # Loud and quiet runs

    The flag `--verbose` is carried from the command line into the request, and nothing
    but the printing looks at it.  So the option commutes with everything on the way:
    with the effects of the other options (`Arguments.setFlags_loud`,
    `Arguments.setOption_loud`), with parsing (`Arguments.parse_loud`), and with making
    the request (`Arguments.request_loud`); and a build does the same for both requests
    (`Builder.run_loud`). -/

namespace AheadOfTime

/-- The request with the flag set. -/
def Request.loud (r : Request) : Request := { r with verbose := true }

/-! ## The request -/

/-- The fields with the flag set. -/
def RequestFields.loud (f : RequestFields) : RequestFields := { f with verbose := true }

/-- The flags of a kind have no say in how loud the request is. -/
theorem KindFlags.applied_loud (flags : KindFlags) (f : RequestFields) :
    flags.applied f.loud = (flags.applied f).map RequestFields.loud := by
  unfold applied
  rcases flags.conflict? with _ | ⟨first, second⟩ <;> rfl

theorem Request.target_loud (f : RequestFields) : target f.loud = target f := rfl

/-- A request is made of its fields in the same way, loud or not. -/
theorem Request.ofFields_loud (f : RequestFields) :
    ofFields f.loud = (ofFields f).map loud := by
  show (target f).bind _ = ((target f).bind _).map loud
  rcases target f with p | ⟨kind, archs⟩
  · rfl
  · show (if f.jobs < 1 then _ else _) = (if f.jobs < 1 then _ else _ : Except _ _).map loud
    by_cases hjobs : f.jobs < 1
    · rw [if_pos hjobs, if_pos hjobs]
      rfl
    · rw [if_neg hjobs, if_neg hjobs]
      show (if f.static ∧ kind ≠ .executable then _ else _)
        = (if f.static ∧ kind ≠ .executable then _ else _ : Except _ _).map loud
      by_cases hstatic : f.static ∧ kind ≠ .executable
      · rw [if_pos hstatic, if_pos hstatic]
        rfl
      · rw [if_neg hstatic, if_neg hstatic]
        show (if kind.isPerInput ∧ f.output.isSome ∧ f.inputs.length > 1 then _ else _)
          = (if kind.isPerInput ∧ f.output.isSome ∧ f.inputs.length > 1 then _ else _ :
              Except _ _).map loud
        split <;> rfl

namespace CommandLine

/-! ## Parsing -/

namespace Arguments

/-- The arguments with the flag set. -/
def loud (a : Arguments) : Arguments := { a with verbose := true }

/-- A flag is set in the same way, loud or not. -/
theorem setFlag_loud (a : Arguments) (s : Switch) :
    a.loud.setFlag s = (a.setFlag s).map loud := by
  cases s <;> rfl

theorem setFlags_loud (a : Arguments) (flags : List Switch) :
    a.loud.setFlags flags = (a.setFlags flags).map loud := by
  induction flags generalizing a with
  | nil => rfl
  | cons s later ih =>
      show (a.loud.setFlag s).bind (·.setFlags later)
        = ((a.setFlag s).bind (·.setFlags later)).map loud
      rw [setFlag_loud]
      rcases a.setFlag s with stop | b
      · rfl
      · exact ih b

/-- An option takes its value in the same way, loud or not. -/
theorem setValue_loud (a : Arguments) (value : String) (s : Switch) :
    a.loud.setValue value s = (a.setValue value s).map loud := by
  cases s with
  | jobs =>
      unfold setValue
      dsimp only
      split
      · rfl
      · split <;> rfl
  | _ => rfl

theorem setOption_loud (a : Arguments) (flags : List Switch) (value : String) (s : Switch) :
    a.loud.setOption flags value s = (a.setOption flags value s).map loud := by
  show (a.loud.setFlags flags).bind (·.setValue value s)
    = ((a.setFlags flags).bind (·.setValue value s)).map loud
  rw [setFlags_loud]
  rcases a.setFlags flags with stop | b
  · rfl
  · exact b.setValue_loud value s

end Arguments

namespace Parsing

/-- The parsing with the flag set. -/
def loud (p : Parsing) : Parsing := { p with arguments := p.arguments.loud }

theorem arguments_loud (p : Parsing) : p.loud.arguments = p.arguments.loud := rfl

/-- A run of tokens is taken in the same way. -/
theorem takeRun_loud (p : Parsing) (run : List Token) :
    p.loud.takeRun run = (p.takeRun run).loud := by
  rcases p with ⟨arguments, _ | files, unused⟩ <;> rfl

/-- So is a run that has been put aside, if there is one. -/
theorem aside_loud (p : Parsing) (run : List Token) :
    (if run = [] then p.loud else p.loud.takeRun run.reverse)
      = (if run = [] then p else p.takeRun run.reverse).loud := by
  split
  · rfl
  · exact p.takeRun_loud run.reverse

/-- **Tokens are parsed alike** whether or not the flag has been set before. -/
theorem tokens_loud (p : Parsing) (run tokens : List Token) :
    p.loud.tokens run tokens = (p.tokens run tokens).map loud := by
  fun_induction Parsing.tokens p run tokens with
  | case1 p run =>
      show Except.ok (if run = [] ∧ p.files.isSome then p.loud else p.loud.takeRun run.reverse) = _
      split
      · rfl
      · exact congrArg Except.ok (p.takeRun_loud run.reverse)
  | case2 p run argument later ih => exact ih
  | case3 p run later ih => exact ih
  | case4 p run argument later q ih =>
      rw [tokens, aside_loud]
      exact ih
  | case5 p run s isShort value later e hof =>
      rw [tokens, hof]
      rfl
  -- the effects of an option, without a value and with one, in its argument or the next
  | case6 p run s isShort value q cluster hof later hlast arguments hset ih =>
      rw [tokens, hof, aside_loud, show ite _ p _ = q from rfl]
      simp only [hlast, arguments_loud, Arguments.setFlags_loud, hset]
      exact ih
  | case7 p run s isShort value q cluster hof later hlast stop hset =>
      rw [tokens, hof, aside_loud, show ite _ p _ = q from rfl]
      simp only [hlast, arguments_loud, Arguments.setFlags_loud, hset]
      rfl
  | case8 p run s isShort value q cluster hof t text later hlast arguments hset ih
  | case10 p run s isShort value q cluster hof t text later hlast arguments hset ih =>
      rw [tokens, hof, aside_loud, show ite _ p _ = q from rfl]
      simp only [hlast, arguments_loud, Arguments.setOption_loud, hset]
      exact ih
  | case9 p run s isShort value q cluster hof t text later hlast stop hset
  | case11 p run s isShort value q cluster hof t text later hlast stop hset =>
      rw [tokens, hof, aside_loud, show ite _ p _ = q from rfl]
      simp only [hlast, arguments_loud, Arguments.setOption_loud, hset]
      rfl
  | case12 p run s isShort value later cluster hof t hlast hplain =>
      rw [tokens, hof, aside_loud]
      simp only [hlast]
      rfl

end Parsing

namespace Arguments

/-- **The option in front** of a command line sets the flag and does nothing else. -/
theorem parse_loud (argv : List String) : parse ("-V" :: argv) = (parse argv).map loud := by
  have htokens : Token.ofArguments ("-V" :: argv)
      = (Token.ofArguments argv).map (.option .verbose true none :: ·) := by
    rw [Token.ofArguments, if_neg (by decide)]
    rcases Token.ofArguments argv with e | tokens <;> rfl
  unfold parse
  rw [htokens]
  rcases Token.ofArguments argv with e | tokens
  · rfl
  · -- the option is taken before all others, and commutes with each
    have hparsing : Parsing.tokens ⟨{}, none, []⟩ [] (.option .verbose true none :: tokens)
        = (Parsing.tokens ⟨{}, none, []⟩ [] tokens).map Parsing.loud :=
      Parsing.tokens_loud ⟨{}, none, []⟩ [] tokens
    show (Parsing.tokens _ [] (.option .verbose true none :: tokens)).bind _
      = ((Parsing.tokens _ [] tokens).bind _).map loud
    rw [hparsing]
    rcases Parsing.tokens ⟨{}, none, []⟩ [] tokens with stop | p
    · rfl
    · show (if p.unused ≠ [] then _ else _) = Except.map loud (if p.unused ≠ [] then _ else _)
      split <;> rfl

/-! ## The request -/
/-- The fields that are given, but for the paths and the number of jobs. -/
def givenFields (a : Arguments) (machine : String) : RequestFields where
  kind := ""
  inputs := a.files
  archs := match a.archs with
    | some (arch :: archs) => (arch :: archs).map Given.text
    | _ => [(Arch.ofMachine machine).name]
  frameworks := a.frameworks.map Given.text
  linkerFlags := a.linkerFlags
  verbose := a.verbose

/-- What is made of the fields when all of them are known. -/
def requestOf (a : Arguments) (fields : RequestFields) : Except Failure Request :=
  match a.jobs with
  | .value jobs => (Request.ofFields { fields with jobs }).mapError Failure.problem
  | .nothing => do
    discard ((Request.target fields).mapError Failure.problem)
    throw (.fault .noNumber)

/-- The request that the arguments ask for is the same one, loud. -/
theorem requestOf_loud (a : Arguments) (fields : RequestFields) :
    a.loud.requestOf fields.loud = (a.requestOf fields).map Request.loud := by
  have hjobs : a.loud.jobs = a.jobs := rfl
  unfold requestOf
  rw [hjobs]
  rcases a.jobs with jobs | _
  · let given := { fields with jobs }
    show (Request.ofFields given.loud).mapError Failure.problem
      = ((Request.ofFields given).mapError Failure.problem).map Request.loud
    rw [Request.ofFields_loud]
    rcases Request.ofFields given with p | r <;> rfl
  · show (discard ((Request.target fields.loud).mapError Failure.problem)).bind _
      = ((discard ((Request.target fields).mapError Failure.problem)).bind _).map Request.loud
    rw [Request.target_loud]
    rcases Request.target fields with p | t <;> rfl

/-- The request of a whole command line is the same one, loud. -/
theorem request_loud (a : Arguments) (machine : String) :
    a.loud.request machine = (a.request machine).map Request.loud := by
  let flags : KindFlags :=
    { dontLink := a.compileOnly, bundle := a.bundle, dylib := a.dylib, static := a.static }
  show (((flags.applied (a.givenFields machine).loud).mapError Failure.problem).bind fun f => _)
    = (((flags.applied (a.givenFields machine)).mapError Failure.problem).bind fun f => _).map
      Request.loud
  rw [KindFlags.applied_loud]
  rcases flags.applied (a.givenFields machine) with p | fields
  · rfl
  · show ((Given.path? a.output).bind fun output => _)
      = ((Given.path? a.output).bind fun output => _).map Request.loud
    rcases Given.path? a.output with e | output
    · rfl
    · show ((Given.path? a.sdk).bind fun sdk => _)
        = ((Given.path? a.sdk).bind fun sdk => _).map Request.loud
      rcases Given.path? a.sdk with e | sdk
      · rfl
      · exact a.requestOf_loud { fields with output, sdk }

end Arguments

end CommandLine

/-! ## Building -/

/-- The inputs are checked in the same way, loud or not. -/
theorem Request.checkInputs_loud (r : Request) (t : Toolchain) (files : FileTree)
    (inputs : List Path) : r.loud.checkInputs t files inputs = r.checkInputs t files inputs := by
  induction inputs with
  | nil => rfl
  | cons input later ih =>
      rw [checkInputs, checkInputs, ih]
      rfl

/-- A request passes its checks in the same way, loud or not. -/
theorem Request.check_loud (r : Request) (t : Toolchain) (files : FileTree) :
    r.loud.check t files = r.check t files := by
  unfold check
  rw [checkInputs_loud]
  rfl

/-- **Validation** is the same, loud or not. -/
theorem Toolchain.validate_loud (t : Toolchain) (r : Request) :
    t.validate r.loud = t.validate r := by
  unfold validate
  simp only [Request.check_loud]
  rfl

namespace Builder

theorem scanPrebuilt_loud (b : Builder) (r : Request) (layout : Toolchain) (tools : ToolPaths)
    (inputs : List Path) (found : Prebuilt) :
    b.scanPrebuilt r.loud layout tools inputs found
      = b.scanPrebuilt r layout tools inputs found := by
  induction inputs generalizing found with
  | nil => rfl
  | cons input later ih =>
      unfold scanPrebuilt
      simp only [ih]
      rfl

/-- **The work** is the same, loud or not. -/
theorem buildArtifacts_loud (b : Builder) (r : Request) (layout : Toolchain) (tools : ToolPaths) :
    b.buildArtifacts r.loud layout tools = b.buildArtifacts r layout tools := by
  have hready : b.readyMade r.loud layout tools = b.readyMade r layout tools := by
    unfold readyMade
    rw [scanPrebuilt_loud]
    rfl
  rw [buildArtifacts_eq, buildArtifacts_eq, hready]
  rfl

/-- **A build does not look at the flag.** -/
theorem run_loud (b : Builder) (r : Request) : b.run r.loud = b.run r := by
  unfold run
  rw [Toolchain.validate_loud]
  simp only [buildArtifacts_loud]
  rfl

end Builder

end AheadOfTime
