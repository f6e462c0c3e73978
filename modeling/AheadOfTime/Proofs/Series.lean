import AheadOfTime.Proofs.Chronicle
import AheadOfTime.Proofs.Cleaning

/-! # Runs in a row

    A builder that builds one request after the other keeps its log: what a run
    answers as its log is the log of the whole series so far.  `runAll_logs` says how
    the run's own records lie in it, from the record that starts it to the one that
    completes it, and that the log is the run's own exactly where nothing had been
    written before, neither outside of the series nor by a run that began. -/

namespace AheadOfTime

variable {b : Builder} {r : Request} {w v : World}

/-- The records written between two worlds, the second of which came out of the
    first. -/
def World.written (w v : World) : Log := v.log.drop w.log.length

/-- What was written between two worlds is what was added. -/
theorem World.written_of_log {own : Log} (h : v.log = w.log ++ own) : w.written v = own := by
  rw [written, h, List.drop_left]

namespace Builder

/-- The request passes the checks and the tools are found, so that its run begins. -/
def Begins (b : Builder) (r : Request) (w : World) : Prop :=
  r.check b.toolchain w.files = .ok () ∧ ∃ tools, b.locator.find b.toolchain w.files = .ok tools

/-- The operations of the records about calls. -/
def callOperations : List String := ["invoke", "tool_failure", "pass_through"]

/-- The records of an exchange are about calls. -/
theorem operation_of_mem_records {x : Exchange} {record : Record} (h : record ∈ x.records) :
    record.operation ∈ callOperations := by
  rw [Exchange.records, List.mem_cons, List.mem_map] at h
  rcases h with rfl | ⟨status, -, rfl⟩
  · exact List.mem_cons_self
  · exact List.mem_cons_of_mem _ List.mem_cons_self

/-- So are those of a look at objects. -/
theorem operation_of_mem_lookRecords {scans : List (Path × Exchange)} {record : Record}
    (h : record ∈ lookRecords r scans) : record.operation ∈ callOperations := by
  rw [lookRecords, List.mem_flatMap] at h
  obtain ⟨s, -, h⟩ := h
  rw [Request.scanRecords, List.mem_append] at h
  rcases h with h | h
  · exact operation_of_mem_records h
  · split at h
    · rw [List.mem_singleton.mp h]
      simp [Request.passThroughRecord, callOperations]
    · cases h

/-- What the work on a request has written: the record of its start, and those of
    its calls, none of which starts or ends a run. -/
theorem Worked.log_eq {tools : ToolPaths} {answer : Except Failure (List Path)}
    (h : b.Worked r w tools answer v) : ∃ between, v.log = w.log ++ r.startRecord :: between ∧
      ∀ record ∈ between, record.operation ∈ callOperations := by
  obtain ⟨scans, others, written, -, htold, hwork, -⟩ :=
    b.chronicle_buildArtifacts r tools (b.begun r w)
  rw [h.work] at hwork
  refine ⟨lookRecords r scans ++ written, ?_, fun record hin => ?_⟩
  · rw [hwork.log]
    show (w.log ++ [r.startRecord]) ++ _ = _
    rw [List.append_assoc]
    rfl
  · rcases List.mem_append.mp hin with hlook | hcall
    · exact operation_of_mem_lookRecords hlook
    · obtain ⟨x, -, hrecord⟩ := htold.mem_records hcall
      exact operation_of_mem_records hrecord

/-- Behind the work, the log goes on with the start of the build. -/
theorem Worked.log_noting {tools : ToolPaths} {answer : Except Failure (List Path)}
    (h : b.Worked r w tools answer v) :
    ∃ more, (v.noting answer).log = w.log ++ r.startRecord :: more := by
  obtain ⟨between, hlog, -⟩ := h.log_eq
  refine ⟨between ++ endRecords answer (.error (.fault .missingArgument)), ?_⟩
  rw [Builder.log_noting answer (.fault .missingArgument), hlog, List.append_assoc]
  rfl

theorem Worked.begins {tools : ToolPaths} {answer : Except Failure (List Path)}
    (h : b.Worked r w tools answer v) : b.Begins r w := ⟨h.check, tools, h.find⟩

/-- A run that begins writes the record of its start, before anything else. -/
theorem log_of_begins (hbegins : b.Begins r w) :
    ∃ more, ((b.run r).run w).2.log = w.log ++ r.startRecord :: more := by
  have hran := b.ran r w
  generalize (b.run r).run w = outcome at hran ⊢
  cases hran with
  | refused hcheck => exact nomatch hcheck.symm.trans hbegins.1
  | unequipped _ hfind =>
      obtain ⟨tools, hfound⟩ := hbegins.2
      exact nomatch hfind.symm.trans hfound
  | failed files h => exact h.log_noting
  | stuck f files h => exact h.log_noting
  | @built _ artifacts v files h =>
      obtain ⟨between, hlog, -⟩ := h.log_eq
      refine ⟨between ++ [Request.completeRecord artifacts], ?_⟩
      dsimp only
      rw [hlog, List.append_assoc]
      rfl

/-- **What a run writes** is added to the log: nothing if it does not begin, and else
    at least the record of its start. -/
theorem log_run (b : Builder) (r : Request) (w : World) :
    ((b.run r).run w).2.log = w.log ++ w.written ((b.run r).run w).2 ∧
      (w.written ((b.run r).run w).2 = [] ↔ ¬ b.Begins r w) := by
  -- a run that does not begin is one that was refused or lacks its tools
  have hadds : ∃ own, ((b.run r).run w).2.log = w.log ++ own ∧ (own = [] ↔ ¬ b.Begins r w) := by
    by_cases hbegins : b.Begins r w
    · obtain ⟨more, hlog⟩ := log_of_begins hbegins
      exact ⟨_, hlog, iff_of_false (List.cons_ne_nil _ _) (not_not_intro hbegins)⟩
    · refine ⟨[], ?_, iff_of_true rfl hbegins⟩
      rw [List.append_nil]
      have hran := b.ran r w
      generalize (b.run r).run w = outcome at hran ⊢
      cases hran with
      | refused _ => rfl
      | unequipped _ _ => rfl
      | failed files h => exact absurd h.begins hbegins
      | stuck f files h => exact absurd h.begins hbegins
      | built files h => exact absurd h.begins hbegins
  obtain ⟨own, hlog, hown⟩ := hadds
  rw [World.written_of_log hlog]
  exact ⟨hlog, hown⟩

/-- What a run that answers writes, and what it answers as its log. -/
theorem log_of_ok {result : BuildResult} (h : ((b.run r).run w).1 = .ok result) :
    result.log = ((b.run r).run w).2.log ∧ ∃ between,
      w.written ((b.run r).run w).2
        = r.startRecord :: (between ++ [Request.completeRecord result.artifacts]) ∧
      ∀ record ∈ between, record.operation ∈ callOperations := by
  have hran := b.ran r w
  generalize (b.run r).run w = outcome at hran h ⊢
  cases hran with
  | built files hworked =>
      cases h
      obtain ⟨between, hlog, hbetween⟩ := hworked.log_eq
      refine ⟨rfl, between, World.written_of_log ?_, hbetween⟩
      dsimp only
      rw [hlog, List.append_assoc]
      rfl
  | _ => cases h

/-! ## Series of runs -/

/-- Runs one request after the other, whatever comes of each of them. -/
def runAll (b : Builder) : List Request → World → List (Except Failure BuildResult) × World
  | [], w => ([], w)
  | r :: later, w =>
    let (answer, v) := (b.run r).run w
    let (answers, u) := b.runAll later v
    (answer :: answers, u)

theorem runAll_cons (b : Builder) (r : Request) (later : List Request) (w : World) :
    b.runAll (r :: later) w = (((b.run r).run w).1 :: (b.runAll later ((b.run r).run w).2).1,
      (b.runAll later ((b.run r).run w).2).2) := rfl

theorem world_runAll_singleton (b : Builder) (r : Request) (w : World) :
    (b.runAll [r] w).2 = ((b.run r).run w).2 := rfl

/-- Requests behind others find the builder as those have left it. -/
theorem runAll_append (b : Builder) (before later : List Request) (w : World) :
    b.runAll (before ++ later) w =
      ((b.runAll before w).1 ++ (b.runAll later (b.runAll before w).2).1,
        (b.runAll later (b.runAll before w).2).2) := by
  induction before generalizing w with
  | nil => rfl
  | cons r before ih =>
      rw [List.cons_append, runAll_cons, runAll_cons, ih]
      rfl

/-- Every run of a series has an answer. -/
theorem length_runAll (b : Builder) (requests : List Request) (w : World) :
    (b.runAll requests w).1.length = requests.length := by
  induction requests generalizing w with
  | nil => rfl
  | cons r later ih =>
      rw [runAll_cons, List.length_cons, List.length_cons, ih]

/-- The answer of a run in the midst of a series is that of a run where the ones
    before it have ended. -/
theorem answer_runAll (b : Builder) (before : List Request) (r : Request) (later : List Request)
    (w : World) : (b.runAll (before ++ r :: later) w).1[before.length]?
      = some ((b.run r).run (b.runAll before w).2).1 := by
  rw [runAll_append, List.getElem?_append_right (Nat.le_of_eq (b.length_runAll before w)),
    b.length_runAll before w, Nat.sub_self, runAll_cons]
  rfl

/-- No run of the series begins. -/
def NoneBegins (b : Builder) : List Request → World → Prop
  | [], _ => True
  | r :: later, w => ¬ b.Begins r w ∧ b.NoneBegins later ((b.run r).run w).2

/-- A series writes nothing iff none of its runs begins. -/
theorem log_runAll (b : Builder) (requests : List Request) (w : World) :
    (b.runAll requests w).2.log = w.log ++ w.written (b.runAll requests w).2 ∧
      (w.written (b.runAll requests w).2 = [] ↔ b.NoneBegins requests w) := by
  have hadds : ∃ own, (b.runAll requests w).2.log = w.log ++ own ∧
      (own = [] ↔ b.NoneBegins requests w) := by
    -- each run finds the log of those before it
    induction requests generalizing w with
    | nil => exact ⟨[], (List.append_nil _).symm, iff_of_true rfl trivial⟩
    | cons r later ih =>
        obtain ⟨hrun, hbegins⟩ := b.log_run r w
        obtain ⟨own, hlater, hown⟩ := ih ((b.run r).run w).2
        refine ⟨w.written ((b.run r).run w).2 ++ own, ?_, ?_⟩
        · rw [← List.append_assoc, ← hrun]
          exact hlater
        · rw [List.append_eq_nil_iff, hbegins, hown]
          rfl
  obtain ⟨own, hlog, hown⟩ := hadds
  rw [World.written_of_log hlog]
  exact ⟨hlog, hown⟩

end Builder

/-- **The log of a run in a series** is what there was before the series, the records
    of the runs before it, and its own: these start with the record of its start, end
    with the one of its completion, and have only records of calls in between.  So
    the log is the run's own iff there was nothing before it and none of the earlier
    runs began. -/
theorem runAll_logs (b : Builder) (before : List Request) (r : Request) (later : List Request)
    (w : World) {result : BuildResult}
    (h : (b.runAll (before ++ r :: later) w).1[before.length]? = some (.ok result)) :
    ∃ own between, own = r.startRecord :: (between ++ [Request.completeRecord result.artifacts]) ∧
      (∀ record ∈ between, record.operation ∈ Builder.callOperations) ∧
      result.log = w.log ++ w.written (b.runAll before w).2 ++ own ∧
      (result.log = own ↔ w.log = [] ∧ b.NoneBegins before w) := by
  rw [b.answer_runAll] at h
  obtain ⟨hresult, between, hown, hbetween⟩ := Builder.log_of_ok (Option.some.inj h)
  obtain ⟨hbefore, hnone⟩ := b.log_runAll before w
  have hlog : result.log = w.log ++ w.written (b.runAll before w).2 ++
      r.startRecord :: (between ++ [Request.completeRecord result.artifacts]) := by
    rw [hresult, (b.log_run r _).1, hown, hbefore]
  refine ⟨_, between, rfl, hbetween, hlog, ?_⟩
  rw [hlog, List.append_left_eq_self, List.append_eq_nil_iff, hnone]

/-- The second of two runs answers the records of the first one as well. -/
theorem runAll_logs_twice : mixedWorld.log = [] ∧ ∃ first second own between,
    (idleBuilder.runAll [objectRequest, objectRequest] mixedWorld).1 = [.ok first, .ok second] ∧
      own = objectRequest.startRecord ::
        (between ++ [Request.completeRecord second.artifacts]) ∧
      second.log = first.log ++ own ∧ second.log ≠ own := by
  have hboth : (idleBuilder.runAll [objectRequest, objectRequest] mixedWorld).1.map
      (·.toOption.isSome) = [true, true] := by decide +kernel
  obtain ⟨x, xs, hall, hx, hxs⟩ := List.map_eq_cons_iff.mp hboth
  obtain ⟨y, ys, rfl, hy, hys⟩ := List.map_eq_cons_iff.mp hxs
  obtain rfl := List.map_eq_nil_iff.mp hys
  obtain ⟨first, hfirst⟩ := Option.isSome_iff_exists.mp hx
  obtain ⟨second, hsecond⟩ := Option.isSome_iff_exists.mp hy
  rw [eq_ok_of_toOption hfirst, eq_ok_of_toOption hsecond] at hall
  have hlast : (idleBuilder.runAll ([objectRequest] ++ [objectRequest]) mixedWorld).1[1]?
      = some (.ok second) := by
    rw [List.cons_append, List.nil_append, hall]
    rfl
  obtain ⟨own, between, hown, -, hlog, hiff⟩ :=
    runAll_logs idleBuilder [objectRequest] objectRequest [] mixedWorld hlast
  refine ⟨rfl, first, second, own, between, hall, hown, ?_, ?_⟩
  · -- the log of the first run is all that had been written before the second one
    rw [Builder.runAll_cons] at hall
    rw [hlog, ← (idleBuilder.log_runAll [objectRequest] mixedWorld).1,
      Builder.world_runAll_singleton, (Builder.log_of_ok (List.cons.inj hall).1).1]
  · intro hsame
    obtain ⟨-, hnot, -⟩ := hiff.mp hsame
    exact hnot ⟨eq_ok_of_toOption (by decide +kernel), _, rfl⟩

end AheadOfTime
