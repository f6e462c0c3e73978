import AheadOfTime.Proofs.Ending
import AheadOfTime.Proofs.Loudness
import AheadOfTime.Proofs.ShellWords

/-! # What the program prints

    Three parties write to the error stream: the log, which shows every command that is
    started if it is asked to; the handler of the build's failure; and at last the
    warnings.

    A log shows the command lines of the exchanges it tells of, in their order and
    nothing else (`World.Echoes`), since of all records only those of started commands
    are shown.  A failure that names a command names that of the exchange which failed
    (`Builder.blamed_run`).  `run_prints` puts the three together for every command line
    and every world in which the program comes to a status. -/

namespace AheadOfTime

variable {u v w : World}

/-! ## What is shown of a log -/

namespace Log

/-- What is echoed of two logs in a row. -/
theorem echoed_append (log more : Log) : (log ++ more).echoed = log.echoed ++ more.echoed := by
  rw [echoed, List.filter_append, List.map_append]
  rfl

/-- Only records of started commands are shown. -/
theorem echoed_eq_nil {log : Log} (h : ∀ record ∈ log, record.operation ≠ "invoke") :
    log.echoed = [] := by
  have hnone : log.filter Record.isEchoed = [] := by
    refine List.filter_eq_nil_iff.mpr fun record hrecord => ?_
    rw [Record.isEchoed, beq_iff_eq]
    exact h record hrecord
  rw [echoed, hnone, List.map_nil]

end Log

/-- The command line of an exchange. -/
def Exchange.line (x : Exchange) : String := Text.shellLine x.call.argv

/-- An exchange is echoed by the line of its call. -/
theorem Exchange.echoed_records (x : Exchange) : x.records.echoed = [x.line] := by
  rw [Log.echoed, x.invokes_records]
  rfl

/-- A scan is echoed by the line of its call. -/
theorem Request.echoed_scanRecords (r : Request) (object : Path) (x : Exchange) :
    (r.scanRecords object x).echoed = [x.line] := by
  rw [scanRecords, Log.echoed_append, x.echoed_records]
  split
  · rfl
  · rfl

/-- Scans are echoed by the lines of their calls, in their order. -/
theorem Builder.echoed_lookRecords (r : Request) (scans : List (Path × Exchange)) :
    (lookRecords r scans).echoed = (scans.map Prod.snd).map Exchange.line := by
  induction scans with
  | nil => rfl
  | cons s later ih =>
      rw [lookRecords, List.flatMap_cons, Log.echoed_append, r.echoed_scanRecords]
      exact congrArg (s.2.line :: ·) ih

/-- **Records that tell of calls** show the command lines of these calls, whatever gets
    between them. -/
theorem Told.echoed {pooled : Bool} {archs : List Arch} {made : List Exchange} {written : Log}
    (h : Told pooled archs made written) : written.echoed = made.map Exchange.line := by
  rw [Log.echoed, h.invokes, List.map_map]
  rfl

/-! ## What a run shows and whom it blames -/

/-- The exchanges between two worlds, the second of which came out of the first. -/
def World.called (w v : World) : List Exchange := v.exchanges.drop w.exchanges.length

/-- The warnings between two worlds, the second of which came out of the first. -/
def World.raised (w v : World) : List Notice := v.notices.drop w.notices.length

/-- What was called between two worlds is what was added. -/
theorem World.called_of_exchanges {made : List Exchange}
    (h : v.exchanges = w.exchanges ++ made) : w.called v = made := by
  rw [called, h, List.drop_left]

/-- The log shows the command lines of the exchanges that came about, in their order. -/
structure World.Echoes (w v : World) (made : List Exchange) : Prop where
  exchanges : v.exchanges = w.exchanges ++ made
  echoed : v.log.echoed = w.log.echoed ++ made.map Exchange.line

namespace World.Echoes

variable {made : List Exchange}

theorem idle (hexchanges : v.exchanges = w.exchanges) (hlog : v.log = w.log) : w.Echoes v [] where
  exchanges := by rw [hexchanges, List.append_nil]
  echoed := by rw [hlog, List.map_nil, List.append_nil]

/-- Records of other operations are not shown. -/
theorem append (h : w.Echoes v made) {more : Log} (hexchanges : u.exchanges = v.exchanges)
    (hlog : u.log = v.log ++ more) (hmore : ∀ record ∈ more, record.operation ≠ "invoke") :
    w.Echoes u made where
  exchanges := hexchanges.trans h.exchanges
  echoed := by rw [hlog, Log.echoed_append, Log.echoed_eq_nil hmore, List.append_nil, h.echoed]

end World.Echoes

namespace Builder

variable {b : Builder} {r : Request} {tools : ToolPaths} {answer : Except Failure (List Path)}

/-- **The work echoes** the calls that it makes. -/
theorem Worked.echoes (h : b.Worked r w tools answer v) : ∃ made, w.Echoes v made := by
  obtain ⟨scans, others, written, -, htold, hwork, -⟩ :=
    b.chronicle_buildArtifacts r tools (b.begun r w)
  rw [h.work] at hwork
  refine ⟨scans.map Prod.snd ++ others, hwork.exchanges, ?_⟩
  have hstart : (w.log ++ [r.startRecord]).echoed = w.log.echoed := by
    rw [Log.echoed_append]
    exact List.append_nil _
  rw [hwork.log, Log.echoed_append, Log.echoed_append, echoed_lookRecords, htold.echoed,
    List.map_append]
  exact congrArg (· ++ _) hstart

/-- What a run ends with is not shown. -/
theorem Worked.echoes_noting (h : b.Worked r w tools answer v) :
    ∃ made, w.Echoes (v.noting answer) made := by
  obtain ⟨made, hechoes⟩ := h.echoes
  refine ⟨made, hechoes.append (World.exchanges_noting answer v)
    (Builder.log_noting answer (.fault .missingArgument) v) fun record hrecord => ?_⟩
  rcases answer with (p | f) | artifacts
  · rw [List.mem_singleton.mp hrecord]
    simp [Request.failedRecord]
  · exact absurd hrecord List.not_mem_nil
  · exact absurd hrecord List.not_mem_nil

/-- **A run's log shows** the command lines of its calls. -/
theorem echoes_run (b : Builder) (r : Request) (w : World) :
    ∃ made, w.Echoes ((b.run r).run w).2 made := by
  have hran := b.ran r w
  generalize (b.run r).run w = outcome at hran ⊢
  cases hran with
  | refused _ => exact ⟨[], .idle rfl rfl⟩
  | unequipped _ _ => exact ⟨[], .idle rfl rfl⟩
  | failed files h =>
      obtain ⟨made, hechoes⟩ := h.echoes_noting
      exact ⟨made, hechoes.exchanges, hechoes.echoed⟩
  | stuck f files h =>
      obtain ⟨made, hechoes⟩ := h.echoes_noting
      exact ⟨made, hechoes.exchanges, hechoes.echoed⟩
  | @built _ artifacts v files h =>
      obtain ⟨made, hechoes⟩ := h.echoes
      refine ⟨made, hechoes.append rfl rfl fun record hrecord => ?_⟩
      rw [List.mem_singleton.mp hrecord]
      simp [Request.completeRecord]

/-- **A run that fails as a tool did** has called that tool. -/
theorem blamed_run {p : Problem} (h : ((b.run r).run w).1 = .error (.problem p))
    (hcode : p.report.code = .toolFailure) :
    ∃ made x, ((b.run r).run w).2.exchanges = w.exchanges ++ made ∧ x ∈ made ∧
      p.Blames x := by
  have hran := b.ran r w
  generalize (b.run r).run w = outcome at hran h ⊢
  cases hran with
  | refused hcheck =>
      cases h
      exact absurd hcode (Request.not_isOfTool_of_check hcheck)
  | unequipped _ hfind =>
      cases h
      exact absurd hcode (Locator.not_isOfTool_of_find hfind)
  -- of all that may come about, only the work can fail as a tool
  | @failed _ e v files hworked =>
      cases h
      obtain ⟨made, added, hstretch⟩ := hworked.stretch
      obtain ⟨x, hstops, hx⟩ := hstretch.blamed p rfl hcode
      exact ⟨made, x, (World.exchanges_noting _ v).trans hstretch.exchanges, hstops.mem, hx⟩
  | stuck f files hworked => exact nomatch h
  | built files hworked => exact nomatch h

end Builder

/-! ## Requests that are refused -/

/-- A computation that fails in this way only. -/
def FailsWith {ε α : Type} (P : ε → Prop) (x : Except ε α) : Prop := ∀ e, x = .error e → P e

namespace FailsWith

variable {ε ε' α β : Type} {P : ε → Prop} {Q : ε' → Prop} {x : Except ε α}

theorem ok (a : α) : FailsWith P (.ok a : Except ε α) := nofun

theorem error {e : ε} (h : P e) : FailsWith P (.error e : Except ε α) := fun _ he =>
  Except.error.inj he ▸ h

/-- One step behind the other, if both fail that way only. -/
theorem bind {f : α → Except ε β} (hx : FailsWith P x) (hf : ∀ a, FailsWith P (f a)) :
    FailsWith P (x >>= f) := by
  rcases x with e | a
  · exact .error (hx e rfl)
  · exact hf a

/-- A failure may be given another name. -/
theorem mapError {g : ε → ε'} (hx : FailsWith P x) (hg : ∀ e, P e → Q (g e)) :
    FailsWith Q (x.mapError g) := by
  rcases x with e | a
  · exact .error (hg e (hx e rfl))
  · exact .ok a

end FailsWith

/-- The problem is not that of a tool. -/
def Problem.IsOwn (p : Problem) : Prop := p.report.code ≠ .toolFailure

/-- The failure is not that of a tool. -/
def Failure.IsOwn (e : Failure) : Prop := ¬ e.IsOfTool

namespace Request

/-- A name of an architecture may be refused, but by no tool. -/
theorem isOwn_archsOfNames (names : List String) :
    FailsWith Problem.IsOwn (archsOfNames names) := by
  induction names with
  | nil => exact .ok []
  | cons name later ih =>
      unfold archsOfNames
      split
      · exact .error (by simp [Problem.IsOwn, Problem.report, Report.of])
      · exact ih.bind fun archs => .ok _

/-- So may be the kind of output. -/
theorem isOwn_target (f : RequestFields) : FailsWith Problem.IsOwn (target f) := by
  have harchs : FailsWith Problem.IsOwn (archs? f.archs) := by
    refine (isOwn_archsOfNames f.archs).bind fun archs => ?_
    split
    · exact .error (by simp [Problem.IsOwn, Problem.report, Report.of])
    · exact .ok _
  unfold target
  split
  · refine harchs.bind fun archs => ?_
    split
    · exact .error (by simp [Problem.IsOwn, Problem.report, Report.of])
    · exact .ok _
  · exact .error (by simp [Problem.IsOwn, Problem.report, Report.of])

/-- **Fields are refused** before any tool is called. -/
theorem isOwn_ofFields (f : RequestFields) : FailsWith Problem.IsOwn (ofFields f) := by
  refine (isOwn_target f).bind fun found => ?_
  dsimp only
  split
  · exact .error (by simp [Problem.IsOwn, Problem.report, Report.of])
  · split
    · exact .error (by simp [Problem.IsOwn, Problem.report, Report.of])
    · split
      · exact .error (by simp [Problem.IsOwn, Problem.report, Report.of])
      · exact .ok _

end Request

/-- Flags that conflict are refused likewise. -/
theorem KindFlags.isOwn_applied (flags : KindFlags) (f : RequestFields) :
    FailsWith Problem.IsOwn (flags.applied f) := by
  unfold applied
  split
  · exact .error (by simp [Problem.IsOwn, Problem.report, Report.of])
  · exact .ok _

namespace CommandLine

namespace Arguments

/-- So is a path that cannot be read. -/
theorem isOwn_path? (path : Option (Given Path)) :
    FailsWith Failure.IsOwn (Given.path? path) := by
  rcases path with _ | path | _
  · exact .ok none
  · exact .ok (some path)
  · exact .error (Failure.not_isOfTool_fault _)

/-- Arguments that make no request are not refused for what a tool did. -/
theorem isOwn_request (a : Arguments) (machine : String) :
    FailsWith Failure.IsOwn (a.request machine) := by
  have hproblem : ∀ p : Problem, p.IsOwn → (Failure.problem p).IsOwn := fun p hp => hp
  refine ((KindFlags.isOwn_applied _ _).mapError hproblem).bind fun fields => ?_
  refine (isOwn_path? a.output).bind fun output => ?_
  refine (isOwn_path? a.sdk).bind fun sdk => ?_
  dsimp only
  split
  · exact (Request.isOwn_ofFields _).mapError hproblem
  · refine FailsWith.bind ?_ fun _ => .error (Failure.not_isOfTool_fault _)
    exact FailsWith.bind ((Request.isOwn_target _).mapError hproblem) fun _ => .ok _

variable {a : Arguments} {host : Host} {env : Environment} {machine : String}

/-- **A build's log shows** the command lines of its calls. -/
theorem echoes_build (a : Arguments) (host : Host) (env : Environment) (machine : String)
    (w : World) : ∃ made, w.Echoes ((a.build host env machine).run w).2 made := by
  rw [a.build_eq]
  rcases a.request machine with e | r
  · exact ⟨[], .idle rfl rfl⟩
  · exact (builder host env).echoes_run r w

/-- A build that fails as a tool did has called that tool. -/
theorem blamed_build {p : Problem} (h : ((a.build host env machine).run w).1 = .error (.problem p))
    (hcode : p.report.code = .toolFailure) :
    ∃ made x, ((a.build host env machine).run w).2.exchanges = w.exchanges ++ made ∧ x ∈ made ∧
      p.Blames x := by
  rw [a.build_eq] at h ⊢
  rcases hrequest : a.request machine with e | r
  · rw [hrequest] at h
    cases h
    exact absurd hcode (a.isOwn_request machine _ hrequest)
  · rw [hrequest] at h
    exact Builder.blamed_run h hcode

/-- Loud arguments build the same. -/
theorem build_loud (a : Arguments) (host : Host) (env : Environment) (machine : String)
    (w : World) : (a.loud.build host env machine).run w = (a.build host env machine).run w := by
  rw [build_eq, build_eq, request_loud]
  rcases a.request machine with e | r
  · rfl
  · show ((builder host env).run r.loud).run w = _
    rw [Builder.run_loud]

/-! ## The log file -/

/-- Writing the log changes nothing but the files, and where it is not refused, the
    file has it. -/
theorem run_writeLog (path : Path) (v : World) : ∃ (answer : Except Fault Unit) (files : FileTree),
    (writeLog path).run v = (answer.mapError Failure.fault, { v with files }) ∧
      (answer = .ok () →
        ∃ executable, files.status path = .ok (.ofText v.log.jsonLines executable)) := by
  unfold writeLog
  rw [run_bind, Build.run_onDisk]
  rcases (Disk.makeDirectories path.parent).run v.files with ⟨fault | _, files⟩
  · exact ⟨.error fault, files, rfl, nofun⟩
  · dsimp only
    rw [run_bind_ok (run_get _), Build.run_onDisk]
    rcases hwrite : (Disk.writeText path v.log.jsonLines).run files with ⟨fault | _, files'⟩
    · exact ⟨.error fault, files', rfl, nofun⟩
    · exact ⟨.ok (), files', rfl, fun _ => Disk.status_of_writeText hwrite⟩

/-- The end of the program changes nothing but the files, and where nothing comes of
    it, the log has been written if that was asked for. -/
theorem exists_conclude (a : Arguments) (v : World) :
    ∃ fault files, a.conclude v = (fault, { v with files }) ∧
      (fault = none → a.logFile ≠ none → ∃ path executable, a.logFile = some (.value path) ∧
        files.status path = .ok (.ofText v.log.jsonLines executable)) := by
  unfold conclude
  rcases a.logFile with _ | path | _
  · exact ⟨none, v.files, rfl, fun _ hasked => absurd rfl hasked⟩
  · obtain ⟨answer, files, hanswer, hwritten⟩ := run_writeLog path v
    dsimp only
    rw [hanswer]
    rcases answer with fault | _
    · exact ⟨some fault, files, rfl, nofun⟩
    · obtain ⟨executable, hstatus⟩ := hwritten rfl
      exact ⟨none, files, rfl, fun _ _ => ⟨path, executable, rfl, hstatus⟩⟩
  · exact ⟨some .noPath, v.files, rfl, nofun⟩

end Arguments

/-! ## What is printed -/

/-- The text as it is shown: as it stands, with a line end behind it if it has none of
    its own, unless it is empty. -/
inductive Ended : String → String → Prop
  | empty : Ended "" ""
  | already (lines : String) : Ended (lines ++ "\n") (lines ++ "\n")
  | now {text : String} : text ≠ "" → (∀ lines, text ≠ lines ++ "\n") → Ended text (text ++ "\n")

/-- The text is ended as it should be. -/
theorem ended_spec (text : String) : Ended text (ended text) := by
  unfold ended
  by_cases hempty : text = ""
  · rw [if_pos (.inl hempty), hempty]
    exact .empty
  · by_cases hlast : text.toList.getLast? = some '\n'
    · rw [if_pos (.inr hlast)]
      obtain ⟨chars, hchars⟩ := List.getLast?_eq_some_iff.mp hlast
      have htext : text = String.ofList chars ++ "\n" := by
        rw [← String.toList_inj, String.toList_append, String.toList_ofList, hchars]
        rfl
      rw [htext]
      exact .already _
    · -- an end is added only where there was none
      rw [if_neg (not_or.mpr ⟨hempty, hlast⟩)]
      refine .now hempty fun lines hlines => hlast ?_
      rw [hlines, String.toList_append]
      exact List.getLast?_concat

/-- What the program says about a build, and the status it ends with, by what the build
    answered and the exchanges that came about.  A tool that failed is that of the
    exchange which the problem is blamed on, and what is said of it is its command, which
    a shell reads back, and what it printed. -/
inductive Says (made : List Exchange) : Except Failure BuildResult → Nat → String → Prop
  | nothing (result : BuildResult) : Says made (.ok result) 0 ""
  | problem {p : Problem} : p.report.code ≠ .toolFailure →
      Says made (.error (.problem p)) 1 ("Error: " ++ p.report.text ++ "\n")
  | tool {p : Problem} {x : Exchange} {status : Int} {output line shown : String} :
      p.report.code = .toolFailure → x ∈ made → p.Blames x →
      x.reply = .exited status output → status ≠ 0 →
      Shell.Words.words? line.toList = some x.call.argv → Ended output shown →
      Says made (.error (.problem p)) 1
        ("Error: " ++ p.report.text ++ "\n" ++ ("Command: " ++ line ++ "\n" ++ shown))

/-- Only a failed tool has a command and an output. -/
theorem toolExit_of_isOwn {p : Problem} (h : p.report.code ≠ .toolFailure) :
    p.report.toolExit = none := by
  cases p with
  | toolFailed tool stage input arch exit => exact absurd rfl h
  | _ => rfl

/-- **What a build comes to** is what the program says of it. -/
theorem says_of_build {a : Arguments} {host : Host} {env : Environment} {machine : String}
    {made : List Exchange}
    (hmade : ((a.build host env machine).run w).2.exchanges = w.exchanges ++ made)
    (hstatus : ∀ fault, ((a.build host env machine).run w).1 ≠ .error (.fault fault)) :
    ∃ status said, endingOf ((a.build host env machine).run w).1 = (.status status, said) ∧
      Says made ((a.build host env machine).run w).1 status said := by
  rcases hanswer : ((a.build host env machine).run w).1 with (p | fault) | result
  · refine ⟨1, problemText p, rfl, ?_⟩
    unfold problemText
    by_cases hcode : p.report.code = .toolFailure
    · obtain ⟨made', x, hcalls, hx, hblames⟩ := Arguments.blamed_build hanswer hcode
      -- the calls of the blame are those that were made
      obtain rfl : made' = made := List.append_cancel_left (hcalls.symm.trans hmade)
      obtain ⟨status, output, hreply, hne, hexit⟩ := hblames.exit
      dsimp only
      rw [hexit]
      exact .tool hcode hx hblames hreply hne (Shell.Words.words?_shellLine _) (ended_spec output)
    · dsimp only
      rw [toolExit_of_isOwn hcode]
      simp only [String.append_empty]
      exact .problem hcode
  · exact absurd hanswer (hstatus fault)
  · exact ⟨0, "", rfl, .nothing result⟩

/-- The command lines of exchanges, a line each. -/
def echoText (made : List Exchange) : String := String.join (made.map fun x => x.line ++ "\n")

/-- Warnings, a line each. -/
def warningText (notices : List Notice) : String :=
  String.join (notices.map fun n => "Warning: " ++ n.message ++ "\n")

/-- **What the program prints**, if it has begun with an empty log and no warnings and
    ends with a status: with `--verbose` first the commands of all its calls; then what
    there is to say about the build, and it ends with 0 if the build answered and with 1
    if not; then the warnings.  The option in front adds the commands, and neither the
    status nor anything in the world, the files and the log among it, is another. -/
theorem run_prints {host : Host} {env : Environment} {machine : String} {argv : List String}
    {a : Arguments} {w : World} (hparse : Arguments.parse argv = .ok a) (hlog : w.log = [])
    (hnotices : w.notices = [])
    (hstatus : ∀ fault, ((run host env machine argv).run w).1.ending ≠ .fault fault) :
    ∃ status said v, Says (w.called v) ((a.build host env machine).run w).1 status said ∧
      (run host env machine argv).run w = (⟨.status status, "",
        (if a.verbose then echoText (w.called v) else "") ++ said ++ warningText (w.raised v)⟩,
        v) ∧
      (run host env machine ("-V" :: argv)).run w = (⟨.status status, "",
        echoText (w.called v) ++ said ++ warningText (w.raised v)⟩, v) := by
  have hrun : run host env machine argv = a.run host env machine := by
    rw [run, hparse]
  have hloud : run host env machine ("-V" :: argv) = a.loud.run host env machine := by
    rw [run, Arguments.parse_loud, hparse]
    rfl
  rw [hrun, a.run_eq] at hstatus ⊢
  rw [hloud, a.loud.run_eq, a.build_loud]
  obtain ⟨made, hechoes⟩ := a.echoes_build host env machine w
  obtain ⟨fault, files, hconclude, -⟩ :=
    a.exists_conclude ((a.build host env machine).run w).2
  have hconclude' : a.loud.conclude ((a.build host env machine).run w).2
      = (fault, { ((a.build host env machine).run w).2 with files }) := hconclude
  rw [hconclude] at hstatus ⊢
  rw [hconclude']
  -- neither the writing of the log nor the build has ended by a fault
  cases fault with
  | some fault => exact absurd rfl (hstatus fault)
  | none =>
      have hanswer : ∀ fault, ((a.build host env machine).run w).1 ≠ .error (.fault fault) := by
        intro fault hfault
        refine hstatus fault ?_
        dsimp only
        rw [hfault]
        rfl
      obtain ⟨status, said, hending, hsays⟩ := says_of_build hechoes.exchanges hanswer
      have hcalled : w.called { ((a.build host env machine).run w).2 with files } = made :=
        World.called_of_exchanges hechoes.exchanges
      have hshown : String.join (((a.build host env machine).run w).2.log.echoed.map (· ++ "\n"))
          = echoText made := by
        rw [hechoes.echoed, hlog, echoText]
        show String.join ((made.map Exchange.line).map (· ++ "\n")) = _
        rw [List.map_map]
        rfl
      have hraised : String.join
            (((a.build host env machine).run w).2.notices.map noticeText)
          = warningText (w.raised { ((a.build host env machine).run w).2 with files }) := by
        rw [World.raised, hnotices]
        rfl
      refine ⟨status, said, { ((a.build host env machine).run w).2 with files }, ?_, ?_, ?_⟩
      · rw [hcalled]
        exact hsays
      · rw [hending, hcalled, hraised, Arguments.echo, hshown]
      · rw [hending, hcalled, hraised, Arguments.echo, hshown]
        rfl

/-- An object of a source, with a framework that is not linked. -/
def cocoaLine : List String := ["-c", "--framework", "Cocoa", "a.rb"]

/-- What the line asks for. -/
def cocoaArguments : Arguments where
  files := [.ofString "a.rb"]
  compileOnly := true
  frameworks := [.value "Cocoa"]

/-- The front end refuses the source, which the program ends with, after a warning. -/
theorem run_prints_refused :
    Arguments.parse cocoaLine = .ok cocoaArguments ∧
      equippedWorld.log = [] ∧ equippedWorld.notices = [] ∧
      (∀ fault, ((run refusingBuilder.host [("AOTC_PREFIX", "r")] "x86_64" cocoaLine).run
        equippedWorld).1.ending ≠ .fault fault) ∧
      ∃ said v, Says (equippedWorld.called v) ((cocoaArguments.build refusingBuilder.host
          [("AOTC_PREFIX", "r")] "x86_64").run equippedWorld).1 1 said ∧
        (run refusingBuilder.host [("AOTC_PREFIX", "r")] "x86_64" cocoaLine).run equippedWorld
          = (⟨.status 1, "", said ++ warningText (equippedWorld.raised v)⟩, v) ∧
        (run refusingBuilder.host [("AOTC_PREFIX", "r")] "x86_64" ("-V" :: cocoaLine)).run
            equippedWorld
          = (⟨.status 1, "", echoText (equippedWorld.called v) ++ said ++
              warningText (equippedWorld.raised v)⟩, v) := by
  have hparse : Arguments.parse cocoaLine = .ok cocoaArguments :=
    eq_ok_of_toOption (by decide +kernel)
  have hending : ((run refusingBuilder.host [("AOTC_PREFIX", "r")] "x86_64" cocoaLine).run
      equippedWorld).1.ending = .status 1 := by
    decide +kernel
  have hstatus : ∀ fault, ((run refusingBuilder.host [("AOTC_PREFIX", "r")] "x86_64"
      cocoaLine).run equippedWorld).1.ending ≠ .fault fault := by
    rw [hending]
    exact nofun
  obtain ⟨status, said, v, hsays, hquiet, hloud⟩ := run_prints hparse rfl rfl hstatus
  rw [hquiet] at hending
  cases Ending.status.inj hending
  exact ⟨hparse, rfl, rfl, hstatus, said, v, hsays, hquiet, hloud⟩

example : ((run refusingBuilder.host [("AOTC_PREFIX", "r")] "x86_64" cocoaLine).run
    equippedWorld).1.stderr = "Error: `macruby` failed during frontend.\n" ++
      "Command: /w/r/bin/macruby --emit-llvm tmp/aotc-00000001/a-x86_64-000000000001.bc " ++
      "MREP_00000000000000000000000000000001 a.rb\nno such class\n" ++
      "Warning: Frameworks are only linked into executables; ignoring them for `object`.\n" := by
  decide +kernel

end CommandLine

end AheadOfTime
