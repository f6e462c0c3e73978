import AheadOfTime.Proofs.Admission
import AheadOfTime.Proofs.Law

/-! # What a failed build is blamed on

    A build stops at a call that comes to nothing, and if the tool of that call
    ended by itself, the build reports what it printed, with its command, its status,
    and what the call was made for.  `Problem.Blames` says this of a problem and an
    exchange.  The call is the last one of the run, unless the architectures of a
    source are compiled side by side: then the others go on beside it, and it is the
    last call of the first architecture that failed (`StopsAt`).
    `run_blames_failed_call` says that this is so, and that the log says so too.

    `accounts` is the law behind it: which calls a stretch of work has made and
    which records it has added, if all goes well and if it fails. -/

namespace AheadOfTime

/-- The problem is what the exchange comes to: its tool ended by itself with a
    status other than zero, and the report has its command, its output and its
    status, and the stage, the input and the architecture of its call. -/
structure Problem.Blames (p : Problem) (x : Exchange) : Prop where
  exit : ∃ status output, x.reply = .exited status output ∧ status ≠ 0 ∧
    p.report.toolExit = some ⟨x.call.argv, output, status⟩
  notProbe : x.call.stage ≠ .probe
  stage : p.report.context.get? "stage" = some x.call.stage.name
  input : p.report.context.get? "input" = some (x.call.input.getD "")
  arch : p.report.context.get? "arch" = some (x.call.arch.getD "")

/-- A failure of a tool is reported as it happened. -/
theorem Problem.blames_toolFailed {x : Exchange} {status : Int} {output : String}
    (hreply : x.reply = .exited status output) (hstatus : status ≠ 0)
    (hstage : x.call.stage ≠ .probe) (tool : String) :
    (toolFailed tool x.call.stage.name x.call.input x.call.arch
      ⟨x.call.argv, output, status⟩).Blames x where
  exit := ⟨status, output, hreply, hstatus, rfl⟩
  notProbe := hstage
  stage := rfl
  input := rfl
  arch := rfl

/-- A failure of a tool that an exchange ends in is blamed on the exchange. -/
theorem Problem.blames_of_stop? {x : Exchange} {p : Problem} (h : x.stop? = some (.problem p))
    (hcode : p.report.code = .toolFailure) (hstage : x.call.stage ≠ .probe) : p.Blames x := by
  unfold Exchange.stop? at h
  rcases hreply : x.reply with ⟨status, output⟩ | _ | fault
  · rw [hreply] at h
    dsimp only at h
    split at h
    · rename_i hrejected
      rw [← Failure.problem.inj (Option.some.inj h)]
      exact blames_toolFailed hreply hrejected.2 hstage _
    · exact nomatch h
  · rw [hreply] at h
    rw [← Failure.problem.inj (Option.some.inj h)] at hcode
    exact nomatch hcode
  · rw [hreply] at h
    exact nomatch h

/-! ## Where a build stops -/

/-- These are the calls of architectures of one source that were compiled side by side,
    and the call is the last one of its architecture.  The architectures before that one
    have gone through, and none has made a call behind one of its own that failed. -/
def StopsBeside (archs : List Arch) (block : List Exchange) (x : Exchange) : Prop :=
  ∃ source done own, ∃ p : Part, ∃ others,
    (done ++ p :: others).map Part.arch = archs ∧ p.made = own ++ [x] ∧
    Interleaves ((done ++ p :: others).map Part.made) block ∧
    (∀ q ∈ done ++ p :: others, q.made.map (·.call.label) <+: archPlan source q.arch ∧
      ∀ y ∈ q.made.dropLast, y.LetsGoOn) ∧
    ∀ q ∈ done, ∀ y ∈ q.made, y.LetsGoOn

/-- The calls stopped at this one: it is the last of them, or, where architectures are
    compiled side by side, it stopped one of them beside the others.  All calls before
    let the work go on. -/
def StopsAt (pooled : Bool) (archs : List Arch) (made : List Exchange) (x : Exchange) : Prop :=
  ∃ before block, made = before ++ block ∧ (∀ y ∈ before, y.LetsGoOn) ∧
    (block = [x] ∨ pooled = true ∧ StopsBeside archs block x)

/-- Calls before it that let the work go on make no difference. -/
theorem StopsAt.behind {pooled : Bool} {archs : List Arch} {made more : List Exchange}
    {x : Exchange} (h : StopsAt pooled archs more x) (hmade : ∀ y ∈ made, y.LetsGoOn) :
    StopsAt pooled archs (made ++ more) x := by
  obtain ⟨before, block, rfl, hbefore, hblock⟩ := h
  exact ⟨made ++ before, block, (List.append_assoc _ _ _).symm,
    List.forall_mem_append.mpr ⟨hmade, hbefore⟩, hblock⟩

/-- The call at which a build stops is among those that were made. -/
theorem StopsAt.mem {pooled : Bool} {archs : List Arch} {made : List Exchange} {x : Exchange}
    (h : StopsAt pooled archs made x) : x ∈ made := by
  obtain ⟨before, block, rfl, -, rfl | ⟨-, _, done, own, p, others, -, hp, hwoven, -⟩⟩ := h
  · exact List.mem_append_right _ List.mem_cons_self
  · refine List.mem_append_right _ (hwoven.mem_iff.mpr ⟨p.made, ?_, ?_⟩)
    · exact List.mem_map_of_mem (List.mem_append_right _ List.mem_cons_self)
    · rw [hp]
      exact List.mem_append_right _ List.mem_cons_self

/-! ## Accounts of what was done -/

/-- What was done between two worlds: these calls were made, all of them asked
    for, and these records were added, none of them about a failed build.  If the
    work goes on, every call lets it; if it ends as a failure of a tool, that is
    the fault of the call at which it stopped. -/
structure Stretch (pooled : Bool) (archs : List Arch) (asks : Call → Prop) (u : World)
    (o : Option Failure) (v : World) (made : List Exchange) (added : Log) : Prop where
  exchanges : v.exchanges = u.exchanges ++ made
  log : v.log = u.log ++ added
  asked : ∀ x ∈ made, asks x.call
  unnoted : ∀ record ∈ added, record.operation ≠ "build_failed"
  goesOn : o = none → ∀ x ∈ made, x.LetsGoOn
  blamed : ∀ p, o = some (.problem p) → p.report.code = .toolFailure →
    ∃ x, StopsAt pooled archs made x ∧ p.Blames x

namespace Stretch

variable {pooled : Bool} {archs : List Arch} {asks : Call → Prop} {u v w : World}
  {o : Option Failure} {made more : List Exchange} {added further : Log}

/-- A stretch without a call. -/
theorem idle (hexchanges : v.exchanges = u.exchanges) (hlog : v.log = u.log)
    (ho : ∀ e, o = some e → ¬ e.IsOfTool) : Stretch pooled archs asks u o v [] [] where
  exchanges := by rw [hexchanges, List.append_nil]
  log := by rw [hlog, List.append_nil]
  asked := List.forall_mem_nil _
  unnoted := List.forall_mem_nil _
  goesOn := fun _ => List.forall_mem_nil _
  blamed := fun p hp hcode => absurd hcode (ho _ hp)

/-- A stretch without a call, and without a failure. -/
theorem still (hexchanges : v.exchanges = u.exchanges) (hlog : v.log = u.log) :
    Stretch pooled archs asks u none v [] [] := .idle hexchanges hlog nofun

/-- Two stretches in a row, if the first one lets the work go on. -/
theorem trans (h : Stretch pooled archs asks u none v made added)
    (h' : Stretch pooled archs asks v o w more further) :
    Stretch pooled archs asks u o w (made ++ more) (added ++ further) where
  exchanges := by rw [h'.exchanges, h.exchanges, List.append_assoc]
  log := by rw [h'.log, h.log, List.append_assoc]
  asked := List.forall_mem_append.mpr ⟨h.asked, h'.asked⟩
  unnoted := List.forall_mem_append.mpr ⟨h.unnoted, h'.unnoted⟩
  goesOn := fun ho => List.forall_mem_append.mpr ⟨h.goesOn rfl, h'.goesOn ho⟩
  blamed := fun p hp hcode => by
    obtain ⟨x, hstops, hx⟩ := h'.blamed p hp hcode
    exact ⟨x, hstops.behind (h.goesOn rfl), hx⟩

end Stretch

/-- What was done can be accounted for, in calls that are asked for. -/
def accounts (pooled : Bool) (archs : List Arch) (asks : Call → Prop) : Law := fun u o v =>
  ∃ made added, Stretch pooled archs asks u o v made added

/-- A call is accounted for, whatever comes of it. -/
theorem accounts_hostRun {pooled : Bool} {archs : List Arch} {asks : Call → Prop} (host : Host)
    {c : Call} (hc : asks c) (hchecked : c.isChecked = true ↔ c.stage ≠ .probe) :
    (host.run c).Meets (accounts pooled archs asks) := by
  intro w
  have hasked : ∀ x ∈ [host.exchanged c w], asks x.call := List.forall_mem_singleton.mpr hc
  have hstarted : ∀ program, ∀ record ∈ [c.startRecord program],
      record.operation ≠ "build_failed" := fun program =>
    List.forall_mem_singleton.mpr (by simp [Call.startRecord])
  have hstops : ∀ f : Failure, some f = none → ∀ x ∈ [host.exchanged c w], x.LetsGoOn :=
    fun f hnone => absurd hnone (Option.some_ne_none f)
  have hcalled := host.called c w
  generalize (host.run c).run w = outcome at hcalled ⊢
  -- only a call that is rejected ends in a failure of its tool
  cases hcalled with
  | unnamed =>
      refine ⟨[], [], .idle rfl rfl fun e he => ?_⟩
      rw [← Option.some.inj he]
      exact Failure.not_isOfTool_fault _
  | @missing program =>
      refine ⟨[host.exchanged c w], [c.startRecord program],
        ⟨rfl, rfl, hasked, hstarted program, hstops _, fun p hp hcode => ?_⟩⟩
      rw [← Failure.problem.inj (Option.some.inj hp)] at hcode
      cases hcode
  | @failed program =>
      refine ⟨[host.exchanged c w], [c.startRecord program],
        ⟨rfl, rfl, hasked, hstarted program, hstops _, fun p hp _ => ?_⟩⟩
      cases hp
  | @rejected program _ status _ _ hreply hisChecked hne =>
      refine ⟨[host.exchanged c w], [c.startRecord program, c.failureRecord program status],
        ⟨rfl, List.append_assoc _ _ _, hasked, ?_, hstops _, fun p hp _ => ?_⟩⟩
      · simp [Call.startRecord, Call.failureRecord]
      · refine ⟨_, ⟨[], _, rfl, List.forall_mem_nil _, .inl rfl⟩, ?_⟩
        rw [← Failure.problem.inj (Option.some.inj hp)]
        exact Problem.blames_toolFailed hreply hne (hchecked.mp hisChecked) _
  | @answered program _ _ output _ hreply hzero =>
      refine ⟨[host.exchanged c w], [c.startRecord program],
        ⟨rfl, rfl, hasked, hstarted program, fun _ => List.forall_mem_singleton.mpr ?_,
          fun p hp _ => ?_⟩⟩
      · by_cases hprobe : c.stage = .probe
        · exact .inl hprobe
        · exact .inr ⟨output, by rw [hreply, hzero (hchecked.mpr hprobe)]⟩
      · cases hp

/-- All that a build does is accounted for. -/
theorem covers_accounts (pooled : Bool) (archs : List Arch) (host : Host) {asks : Call → Prop}
    (hasks : ∀ c, asks c → (c.isChecked = true ↔ c.stage ≠ .probe)) :
    (accounts pooled archs asks).Covers host asks where
  idle := fun w => ⟨[], [], .still rfl rfl⟩
  next := fun ⟨made, added, h⟩ ⟨more, further, h'⟩ => ⟨made ++ more, added ++ further, h.trans h'⟩
  disk := fun files ⟨made, added, h⟩ =>
    ⟨made, added, h.exchanges, h.log, h.asked, h.unnoted, h.goesOn, h.blamed⟩
  overrule := fun f ⟨made, added, h⟩ =>
    ⟨made, added, h.exchanges, h.log, h.asked, h.unnoted, nofun, nofun⟩
  stop := fun w {e} he => ⟨[], [], .idle rfl rfl fun e' he' => Option.some.inj he' ▸ he⟩
  warn := fun n w => ⟨[], [], .still rfl rfl⟩
  passThrough := fun input w => ⟨[], [Request.passThroughRecord input],
    (List.append_nil _).symm, rfl, List.forall_mem_nil _, by simp [Request.passThroughRecord],
    fun _ => List.forall_mem_nil _, nofun⟩
  allocate := fun stem extension w => by
    obtain ⟨⟨files, directories, ids, scratch, -, hframe⟩, hfails⟩ :=
      Build.allocate_frame host stem extension w
    rw [hframe]
    refine ⟨[], [], .idle rfl rfl fun e he => ?_⟩
    rcases hanswer : ((Build.allocate host stem extension).run w).1 with e' | path
    · rw [hanswer] at he
      rw [← Option.some.inj he]
      exact (hfails e' hanswer).not_isOfTool
    · rw [hanswer] at he
      exact nomatch he
  call := fun hc => accounts_hostRun host hc (hasks _ hc)

/-! ## Architectures of one source -/

namespace Compiler

variable {c : Compiler} {source : Path} {e : EntryPoint}

/-- All three calls for an architecture are calls that a compilation may make. -/
theorem mayCall_archCalls (c : Compiler) (source : Path) (e : EntryPoint) (arch : Arch)
    (bitcode assembly object : Path) :
    ∀ call ∈ c.archCalls source e arch bitcode assembly object, c.MayCall call := by
  have hall : c.MayCall (c.frontendCall source arch e bitcode) ∧
      c.MayCall (c.backendCall source arch bitcode assembly) ∧
      c.MayCall (c.assembleCall source arch assembly object) :=
    ⟨.frontend source arch e bitcode, .backend source arch bitcode assembly,
      .assemble source arch assembly object⟩
  simpa [archCalls] using hall

/-- So are the calls that were made for it, however far it got. -/
theorem Does.mayCall {p : Part} (h : c.Does source e p) : ∀ x ∈ p.made, c.MayCall x.call := by
  intro x hx
  cases h with
  | calledOff => exact nomatch hx
  | made h => exact c.mayCall_archCalls _ _ _ _ _ _ _ (h.calls.subset (List.mem_map_of_mem hx))
  | failed h => exact c.mayCall_archCalls _ _ _ _ _ _ _ (h.calls.subset (List.mem_map_of_mem hx))

/-- An architecture that failed as a tool did has made a last call that is to blame. -/
theorem Does.blamed {part : Part} {p : Problem} (h : c.Does source e part)
    (houtcome : part.outcome = some (.error (.problem p))) (hcode : p.report.code = .toolFailure) :
    ∃ own x, part.made = own ++ [x] ∧ (∀ y ∈ own, y.LetsGoOn) ∧ p.Blames x := by
  cases h with
  | calledOff => exact nomatch houtcome
  | made => exact nomatch houtcome
  | @failed arch bitcode assembly object made f hperformed =>
      obtain rfl : f = .problem p := Except.error.inj (Option.some.inj houtcome)
      obtain _ | ⟨-, -, hplain⟩ | @⟨own, x, _, hcalls, hgoesOn, hstop⟩ := hperformed
      · exact absurd hcode hplain.1
      · have hstage : x.call.stage ≠ .probe := by
          have hin := hcalls.subset (List.mem_map_of_mem
            (List.mem_append_right _ List.mem_cons_self))
          have hall : ∀ call ∈ c.archCalls source e arch bitcode assembly object,
              call.stage ≠ .probe := by
            simp [archCalls, frontendCall, backendCall, assembleCall]
          exact hall _ hin
        refine ⟨own, x, rfl, fun y hy => ?_, Problem.blames_of_stop? hstop hcode hstage⟩
        exact letsGoOn_of_stop? (c.checked_archCalls source e arch _ _ _) hcalls
          (List.mem_append_left _ hy) (hgoesOn y hy)

/-- **The architectures of a source** are accounted for: their first failure, in their
    order, is blamed on the last call of its architecture. -/
theorem accounts_compileAll {asks : Call → Prop} (hasks : ∀ call, c.MayCall call → asks call)
    (source : Path) (e : EntryPoint) :
    (c.compileAll source e).Meets (accounts c.isPooled c.archs asks) := by
  intro w
  rcases hrun : (c.compileAll source e).run w with ⟨answer, v⟩
  obtain ⟨parts, made, written, h⟩ := parted_compileAll hrun
  refine ⟨made, written, h.recounts.exchanges, h.recounts.log, fun x hx => ?_, fun record hr => ?_,
    fun hnone x hx => ?_, fun p hp hcode => ?_⟩
  · obtain ⟨own, hown, hx⟩ := h.woven.mem_iff.mp hx
    obtain ⟨p, hp, rfl⟩ := List.mem_map.mp hown
    exact hasks _ ((h.does p hp).mayCall x hx)
  · obtain ⟨own, hown, hr⟩ := h.recorded.mem_iff.mp hr
    obtain ⟨p, -, rfl⟩ := List.mem_map.mp hown
    obtain ⟨x, -, hr⟩ := List.mem_flatMap.mp hr
    rcases List.mem_cons.mp hr with rfl | hr
    · simp [Exchange.invokeRecord]
    · obtain ⟨status, -, rfl⟩ := List.mem_map.mp hr
      simp [Exchange.failureRecord]
  · cases answer with
    | error f => exact absurd hnone (Option.some_ne_none f)
    | ok objects =>
        obtain ⟨own, hown, hx⟩ := h.woven.mem_iff.mp hx
        obtain ⟨p, hp, rfl⟩ := List.mem_map.mp hown
        obtain ⟨object, hobject⟩ := h.answered p hp
        exact ((h.does p hp).whole hobject).2 x hx
  · obtain rfl := eq_error_of_failure? hp
    obtain ⟨done, part, others, rfl, hdone, hpart, hothers⟩ := h.failed
    have hlets : ∀ q ∈ done, ∀ y ∈ q.made, y.LetsGoOn := by
      intro q hq
      obtain ⟨object, hobject⟩ := hdone q hq
      exact ((h.does q (List.mem_append_left _ hq)).whole hobject).2
    obtain ⟨own, x, hown, hgoesOn, hblames⟩ :=
      (h.does part (List.mem_append_right _ List.mem_cons_self)).blamed hpart hcode
    refine ⟨x, ?_, hblames⟩
    cases hpooled : c.isPooled with
    | true =>
        exact ⟨[], made, rfl, List.forall_mem_nil _, .inr ⟨rfl, source, done, own, part, others,
          h.archs, hown, h.woven, fun q hq => (h.does q hq).part, hlets⟩⟩
    | false =>
        -- one after the other, nothing was called behind the failure
        have hidle : (others.map Part.made).flatten = [] :=
          List.flatten_eq_nil_iff.mpr (List.forall_mem_map.mpr (hothers hpooled))
        refine ⟨(done.map Part.made).flatten ++ own, [x], ?_, ?_, .inl rfl⟩
        · rw [(h.inTurn hpooled).1, List.map_append, List.flatten_append, List.map_cons,
            List.flatten_cons, hidle, List.append_nil, hown, List.append_assoc]
        · refine List.forall_mem_append.mpr ⟨fun y hy => ?_, hgoesOn⟩
          obtain ⟨_, hin, hy⟩ := List.mem_flatten.mp hy
          obtain ⟨q, hq, rfl⟩ := List.mem_map.mp hin
          exact hlets q hq y hy

end Compiler

/-! ## Whole builds -/

/-- The work on a request is accounted for, in the calls of its build. -/
theorem Builder.accounts_buildArtifacts (b : Builder) (r : Request) (layout : Toolchain)
    (tools : ToolPaths) : (b.buildArtifacts r layout tools).Meets
      (accounts r.isPooled r.archs (b.MayCall r layout tools)) := by
  have hcovers : (accounts r.isPooled r.archs (b.MayCall r layout tools)).Covers b.host
      (b.MayCall r layout tools) :=
    covers_accounts r.isPooled r.archs b.host fun _ hc => hc.isChecked_iff
  intro w
  obtain ⟨_, _, h⟩ := Law.Covers.buildArtifacts (fun _ _ => hcovers.mono fun _ => .linking)
    (fun exceptions bridging source output => Law.Bears.compile
      (c := b.compilerFor r layout tools exceptions bridging)
      (hcovers.mono fun _ => .compiling exceptions bridging).bears
      (fun _ _ => ⟨[], [], .still rfl rfl⟩)
      (Compiler.accounts_compileAll fun _ => .compiling exceptions bridging) source output) w
  exact h

/-- **The whole work** is a stretch behind the world in which it begins. -/
theorem Builder.Worked.stretch {b : Builder} {r : Request} {w v : World} {tools : ToolPaths}
    {answer : Except Failure (List Path)} (h : b.Worked r w tools answer v) :
    ∃ made added, Stretch r.isPooled r.archs (b.MayCall r (r.layout b.toolchain) tools)
      (b.begun r w) (failure? answer) v made added :=
  (b.accounts_buildArtifacts r _ tools).of_run h.work

/-- A request is never refused for what a tool did. -/
theorem Request.not_isOfTool_of_check {r : Request} {t : Toolchain} {files : FileTree}
    {e : Failure} (h : r.check t files = .error e) : ¬ e.IsOfTool := by
  rw [r.check_eq, Condition.settle_eq_error_iff] at h
  obtain ⟨before, c, after, hconditions, -, -, rfl⟩ := h
  have hin : c ∈ r.conditions t files := by
    rw [hconditions]
    exact List.mem_append_right _ List.mem_cons_self
  have hproblem : ∀ c ∈ r.conditions t files, c.problem.report.code ≠ .toolFailure := by
    unfold conditions
    simp only [List.forall_mem_append]
    refine ⟨⟨⟨⟨?_, ?_⟩, ?_⟩, ?_⟩, ?_⟩
    · simp [sdkCondition, Problem.report, Report.of]
    · cases r.static <;> simp [libraryCondition, Problem.report, Report.of]
    · split <;> simp [outputCondition, Problem.report, Report.of]
    · rw [List.forall_mem_flatMap]
      simp [inputConditions, Problem.report, Report.of]
    · split <;> simp [bodyCondition, Problem.report, Report.of]
  unfold Condition.failure
  split
  · exact Failure.not_isOfTool_fault _
  · exact hproblem c hin

/-- That a tool is missing is a plain failure. -/
theorem Toolchain.isPlain_of_requireTool {t : Toolchain} {files : FileTree}
    {searchPath : String} {role : ToolRole} {e : Failure}
    (h : t.requireTool files searchPath role = .error e) : e.IsPlain := by
  unfold requireTool at h
  split at h
  · rw [← Except.error.inj h]
    exact Failure.isPlain_fault _
  · rw [← Except.error.inj h]
    exact ⟨nofun, nofun⟩
  · exact nomatch h

/-- So is whatever else the search for the tools comes to. -/
theorem Locator.isPlain_of_find {l : Locator} {t : Toolchain} {files : FileTree}
    {e : Failure} (h : l.find t files = .error e) : e.IsPlain := by
  cases l with
  | fixed tools => exact nomatch h
  | search searchPath =>
      obtain ⟨role, hrole⟩ := Toolchain.locateTools_error h
      exact Toolchain.isPlain_of_requireTool hrole

/-- Tools that are missing have not failed. -/
theorem Locator.not_isOfTool_of_find {l : Locator} {t : Toolchain} {files : FileTree}
    {e : Failure} (h : l.find t files = .error e) : ¬ e.IsOfTool :=
  (isPlain_of_find h).not_isOfTool

/-- **A failed build is blamed on a call that failed.**  A run that answers has made no
    call, apart from the probe, whose tool did not report success.  If a run fails
    as a tool did, then the error is what came of the call at which the work stopped,
    the last one unless architectures are compiled side by side, and the log ends in the
    one record of a failed build, with the stage of that call and the code of the
    error. -/
theorem run_blames_failed_call (b : Builder) (r : Request) (w : World) :
    ∃ made, ((b.run r).run w).2.exchanges = w.exchanges ++ made ∧
      (∀ result, ((b.run r).run w).1 = .ok result →
        ∀ x ∈ made, x.call.stage = .probe ∨ ∃ output, x.reply = .exited 0 output) ∧
      ∀ p, ((b.run r).run w).1 = .error (.problem p) → p.report.code = .toolFailure →
        ∃ x earlier record, StopsAt r.isPooled r.archs made x ∧ p.Blames x ∧
          ((b.run r).run w).2.log = w.log ++ earlier ++ [record] ∧
          (∀ other ∈ earlier, other.operation ≠ "build_failed") ∧
          record.operation = "build_failed" ∧ record.stage = some x.call.stage.name ∧
          record.extra = some [("code", .str "E_TOOL_FAILURE")] := by
  have hran := b.ran r w
  generalize (b.run r).run w = outcome at hran ⊢
  cases hran with
  | refused hcheck =>
      -- no tool was called, and none is blamed
      refine ⟨[], (List.append_nil _).symm, nofun, fun p hp hcode => ?_⟩
      rw [Except.error.inj hp] at hcheck
      exact absurd hcode (Request.not_isOfTool_of_check hcheck)
  | unequipped _ hfind =>
      refine ⟨[], (List.append_nil _).symm, nofun, fun p hp hcode => ?_⟩
      rw [Except.error.inj hp] at hfind
      exact absurd hcode (Locator.not_isOfTool_of_find hfind)
  | @failed tools e v files hworked =>
      obtain ⟨made, added, h⟩ := hworked.stretch
      refine ⟨made, (World.exchanges_noting _ v).trans h.exchanges, nofun, fun p hp hcode => ?_⟩
      obtain rfl := Except.error.inj hp
      -- all calls were made before the failure was noted
      obtain ⟨x, hstops, hx⟩ := h.blamed p rfl hcode
      refine ⟨x, r.startRecord :: added, Request.failedRecord p.report, hstops, hx, ?_, ?_, rfl,
        hx.stage, ?_⟩
      · show v.log ++ [Request.failedRecord p.report] = _
        rw [h.log]
        simp [Builder.begun]
      · exact List.forall_mem_cons.mpr ⟨by simp [Request.startRecord], h.unnoted⟩
      · show some [("code", Json.str p.report.code.text)] = _
        rw [hcode]
        rfl
  | @stuck tools answer v f files hworked =>
      -- the fault of the cleaning has taken the place of any other failure
      obtain ⟨made, added, h⟩ := hworked.stretch
      exact ⟨made, (World.exchanges_noting answer v).trans h.exchanges, nofun, nofun⟩
  | built files hworked =>
      obtain ⟨made, added, h⟩ := hworked.stretch
      exact ⟨made, h.exchanges, fun _ _ => h.goesOn rfl, nofun⟩

/-- The code of the problem that a failure is. -/
def Failure.code? : Failure → Option ErrorCode
  | .problem p => some p.report.code
  | .fault _ => none

/-- A builder whose front end refuses every source. -/
def refusingBuilder : Builder where
  host := { tools := fun _ c files =>
    (if c.stage = .frontend then .exited 3 "no such class" else .exited 0 "", files) }
  locator := idleBuilder.locator

/-- The front end stops the build, after the probe, and is what the error is
    about. -/
theorem run_blames_failed_call_refused :
    ∃ p made x, ((refusingBuilder.run mixedRequest).run mixedWorld).1 = .error (.problem p) ∧
      ((refusingBuilder.run mixedRequest).run mixedWorld).2.exchanges
        = mixedWorld.exchanges ++ made ∧
      StopsAt mixedRequest.isPooled mixedRequest.archs made x ∧ p.Blames x := by
  have hcode : (failure? ((refusingBuilder.run mixedRequest).run mixedWorld).1).bind Failure.code?
      = some .toolFailure := by
    decide +kernel
  obtain ⟨made, hmade, -, hblames⟩ := run_blames_failed_call refusingBuilder mixedRequest mixedWorld
  rcases hanswer : ((refusingBuilder.run mixedRequest).run mixedWorld).1 with (p | f) | result
  · rw [hanswer] at hcode
    obtain ⟨x, _, _, hstops, hblamed, -⟩ := hblames p hanswer (Option.some.inj hcode)
    exact ⟨p, made, x, rfl, hmade, hstops, hblamed⟩
  · rw [hanswer] at hcode
    exact absurd hcode.symm (Option.some_ne_none _)
  · rw [hanswer] at hcode
    exact absurd hcode.symm (Option.some_ne_none _)

/-- Side by side, the call that an error is about need not be the last one. -/
theorem run_fails_amid_calls :
    Request.ofFields pairFields = .ok pairRequest ∧
      ∃ p last, ((crossingBuilder.run pairRequest).run mixedWorld).1 = .error (.problem p) ∧
        p.report.code = .toolFailure ∧
        ((crossingBuilder.run pairRequest).run mixedWorld).2.exchanges.getLast? = some last ∧
        ¬ p.Blames last := by
  have hcode : (failure? ((crossingBuilder.run pairRequest).run mixedWorld).1).bind Failure.code?
      = some .toolFailure := by
    decide +kernel
  have hreply : ((crossingBuilder.run pairRequest).run mixedWorld).2.exchanges.getLast?.map
      (·.reply) = some (.exited 0 "") := by
    decide +kernel
  refine ⟨ofFields_pairFields, ?_⟩
  rcases hanswer : ((crossingBuilder.run pairRequest).run mixedWorld).1 with (p | f) | result
  · rw [hanswer] at hcode
    obtain ⟨last, hlast, hzero⟩ := Option.map_eq_some_iff.mp hreply
    refine ⟨p, last, rfl, Option.some.inj hcode, hlast, fun hblames => ?_⟩
    obtain ⟨status, output, hexited, hne, -⟩ := hblames.exit
    exact hne (Reply.exited.inj (hexited.symm.trans hzero)).1
  · rw [hanswer] at hcode
    exact absurd hcode.symm (Option.some_ne_none _)
  · rw [hanswer] at hcode
    exact absurd hcode.symm (Option.some_ne_none _)

end AheadOfTime
