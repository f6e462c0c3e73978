import AheadOfTime.Proofs.Outcome

/-! # What an exchange comes to

    An exchange says all about a call: what was asked, and what the reply was.  From
    these alone it follows whether the build may go on behind it, which failure it
    ends in if it may not, and which records are written about it. -/

namespace AheadOfTime

variable {α : Type}

/-! ## Failures -/

/-- The failure in an answer. -/
def failure? : Except Failure α → Option Failure
  | .ok _ => none
  | .error e => some e

/-- What has failed has that failure for its answer. -/
theorem eq_error_of_failure? {answer : Except Failure α} {e : Failure}
    (h : failure? answer = some e) : answer = .error e := by
  cases answer with
  | error e' => exact congrArg Except.error (Option.some.inj h)
  | ok a => exact nomatch h

/-- The failure is that of a tool which ended with a status other than zero. -/
def Failure.IsOfTool : Failure → Prop
  | .problem p => p.report.code = .toolFailure
  | .fault _ => False

theorem Failure.not_isOfTool_fault (f : Fault) : ¬ (Failure.fault f).IsOfTool := not_false

/-- Only a tool that ended by itself is reported as a failure of a tool. -/
theorem Failure.isOfTool_iff (e : Failure) : e.IsOfTool ↔
    ∃ tool stage input arch exit, e = .problem (.toolFailed tool stage input arch exit) := by
  constructor
  · intro h
    cases e with
    | fault f => exact absurd h (not_isOfTool_fault f)
    | problem p =>
        cases p with
        | toolFailed tool stage input arch exit => exact ⟨tool, stage, input, arch, exit, rfl⟩
        | _ => exact nomatch h
  · rintro ⟨tool, stage, input, arch, exit, rfl⟩
    rfl

/-- The failure is neither that of a tool nor that of an executable which lacks its
    program body. -/
def Failure.IsPlain : Failure → Prop
  | .problem p => p.report.code ≠ .toolFailure ∧ p.report.code ≠ .invalidFirstInput
  | .fault _ => True

theorem Failure.isPlain_fault (f : Fault) : (Failure.fault f).IsPlain := trivial

/-- A plain failure is none of a tool. -/
theorem Failure.IsPlain.not_isOfTool {e : Failure} (h : e.IsPlain) : ¬ e.IsOfTool := by
  cases e with
  | problem p => exact h.1
  | fault f => exact not_isOfTool_fault f

/-- What handing out a scratch file may change, and that its failures are plain. -/
theorem Build.allocate_frame (host : Host) (stem extension : String) (w : World) :
    (∃ files scratchDirectories scratchIds scratch, w.scratchIds ≤ scratchIds ∧
      ((allocate host stem extension).run w).2
        = { w with files, scratchDirectories, scratchIds, scratch }) ∧
    ∀ e, ((allocate host stem extension).run w).1 = .error e → e.IsPlain := by
  have hhands := handsOut host stem extension w
  have hgives := givesDirectory w
  generalize (allocate host stem extension).run w = outcome at hhands ⊢
  -- the directory may have been made, whether a file was handed out or not
  cases hhands with
  | closed =>
      refine ⟨⟨_, _, _, _, Nat.le_refl _, rfl⟩, fun e he => ?_⟩
      rw [← Except.error.inj he]
      exact ⟨nofun, nofun⟩
  | refused _ hdirectory =>
      rw [hdirectory] at hgives
      cases hgives with
      | refused =>
          refine ⟨⟨_, _, _, _, Nat.le_refl _, rfl⟩, fun e he => ?_⟩
          rw [← Except.error.inj he]
          exact Failure.isPlain_fault _
  | given _ hdirectory _ =>
      rw [hdirectory] at hgives
      cases hgives with
      | standing | made => exact ⟨⟨_, _, _, _, Nat.le_succ _, rfl⟩, nofun⟩

/-! ## The records of an exchange -/

namespace Exchange

/-- The base name of the program that was called. -/
def toolName? (x : Exchange) : Option String :=
  x.call.argv.head?.map fun program => (Path.ofString program).name

/-- The record of the call: what it is about, its tool and its command line. -/
def invokeRecord (x : Exchange) : Record where
  operation := "invoke"
  input := x.call.input
  arch := x.call.arch
  stage := some x.call.stage.name
  tool := x.toolName?
  message := Text.shellLine x.call.argv

/-- The record of a call whose tool ended with this status, other than zero. -/
def failureRecord (x : Exchange) (status : Int) : Record where
  level := "error"
  operation := "tool_failure"
  input := x.call.input
  arch := x.call.arch
  stage := some x.call.stage.name
  tool := x.toolName?
  message := "`" ++ x.toolName?.getD "" ++ "` exited with status " ++ toString status ++ "."

/-- The status that is held against the call: it is checked, and its tool ended with
    another one than zero. -/
def badStatus? (x : Exchange) : Option Int :=
  match x.reply with
  | .exited status _ => if x.call.isChecked ∧ status ≠ 0 then some status else none
  | _ => none

/-- What is written about an exchange: the call, and directly behind it the failure
    of its tool if there is one. -/
def records (x : Exchange) : Log := x.invokeRecord :: x.badStatus?.toList.map x.failureRecord

end Exchange

/-- Between two worlds these exchanges came about, and these records were written. -/
structure World.Recounts (w v : World) (made : List Exchange) (written : Log) : Prop where
  exchanges : v.exchanges = w.exchanges ++ made
  log : v.log = w.log ++ written

namespace World.Recounts

variable {u v w : World} {made more : List Exchange} {written also : Log}

theorem refl (w : World) : w.Recounts w [] [] :=
  ⟨(List.append_nil _).symm, (List.append_nil _).symm⟩

/-- What two stretches recount, both of them together recount. -/
theorem trans (h : u.Recounts v made written) (h' : v.Recounts w more also) :
    u.Recounts w (made ++ more) (written ++ also) where
  exchanges := by rw [h'.exchanges, h.exchanges, List.append_assoc]
  log := by rw [h'.log, h.log, List.append_assoc]

end World.Recounts

/-! ## Going on behind an exchange -/

namespace Exchange

/-- The failure that the call ends in, if its tool did not start, or ended with a
    status that is held against it. -/
def stop? (x : Exchange) : Option Failure :=
  match x.reply with
  | .missing => some (.problem (.toolNotStarted (x.call.argv.headD "")))
  | .failed fault => some (.fault fault)
  | .exited status output =>
    if x.call.isChecked ∧ status ≠ 0 then
      some (.problem (.toolFailed (Call.toolName (x.call.argv.headD "")) x.call.stage.name
        x.call.input x.call.arch ⟨x.call.argv, output, status⟩))
    else none

/-- The tool ran and reported success. -/
def Succeeded (e : Exchange) : Prop := ∃ output, e.reply = .exited 0 output

instance (e : Exchange) : Decidable e.Succeeded :=
  match h : e.reply with
  | .exited status output =>
    if hzero : status = 0 then .isTrue ⟨output, by rw [h, hzero]⟩
    else .isFalse fun ⟨_, hreply⟩ => hzero (Reply.exited.inj (h.symm.trans hreply)).1
  | .missing => .isFalse fun ⟨_, hreply⟩ => nomatch h.symm.trans hreply
  | .failed _ => .isFalse fun ⟨_, hreply⟩ => nomatch h.symm.trans hreply

/-- A build may go on behind the call: it asked a question only, or the tool
    reported success. -/
def LetsGoOn (e : Exchange) : Prop := e.call.stage = .probe ∨ e.Succeeded

instance (e : Exchange) : Decidable e.LetsGoOn := inferInstanceAs (Decidable (_ ∨ _))

/-- A checked call that does not end in a failure has succeeded. -/
theorem succeeded_of_stop? {x : Exchange} (hchecked : x.call.isChecked = true)
    (h : x.stop? = none) : x.Succeeded := by
  unfold stop? at h
  rcases hreply : x.reply with ⟨status, output⟩ | _ | fault
  · rw [hreply] at h
    by_cases hzero : status = 0
    · exact ⟨output, by rw [hreply, hzero]⟩
    · dsimp only at h
      rw [if_pos ⟨hchecked, hzero⟩] at h
      exact nomatch h
  · rw [hreply] at h
    exact nomatch h
  · rw [hreply] at h
    exact nomatch h

/-- **The end of a call** is in its exchange: the failure that the call ends in, and
    the record about it. -/
theorem run_conclude {x : Exchange} (h : x.call.argv ≠ []) (w : World) :
    ∃ answer, (x.call.conclude x.reply).run w
        = (answer, { w with log := w.log ++ x.badStatus?.toList.map x.failureRecord }) ∧
      failure? answer = x.stop? := by
  obtain ⟨program, arguments, hargv⟩ := List.exists_cons_of_ne_nil h
  rw [x.call.run_conclude hargv, badStatus?, stop?]
  rcases hreply : x.reply with ⟨status, output⟩ | _ | fault
  · dsimp only
    by_cases hrejected : x.call.isChecked ∧ status ≠ 0
    · rw [if_pos hrejected, if_pos hrejected, if_pos hrejected, Option.toList_some,
        List.map_singleton, hargv]
      refine ⟨_, congrArg (Prod.mk _) ?_, rfl⟩
      simp [failureRecord, toolName?, hargv, Call.failureRecord, Call.toolName]
    · rw [if_neg hrejected, if_neg hrejected, if_neg hrejected]
      exact ⟨_, congrArg (Prod.mk _) (by rw [Option.toList_none, List.map_nil, List.append_nil]),
        rfl⟩
  · rw [hargv]
    exact ⟨_, congrArg (Prod.mk _) (by rw [Option.toList_none, List.map_nil, List.append_nil]), rfl⟩
  · exact ⟨_, congrArg (Prod.mk _) (by rw [Option.toList_none, List.map_nil, List.append_nil]), rfl⟩

end Exchange

/-- A call that names a program adds its exchange and the record of it. -/
theorem Host.run_call_exchanged (host : Host) {c : Call} (h : c.argv ≠ []) (w : World) :
    ∃ v, (host.call c).run w = (.ok (host.exchanged c w).reply, v) ∧
      v = { w with
        files := v.files
        log := w.log ++ [(host.exchanged c w).invokeRecord]
        exchanges := w.exchanges ++ [host.exchanged c w] } := by
  obtain ⟨program, arguments, hargv⟩ := List.exists_cons_of_ne_nil h
  have hrecord : (host.exchanged c w).invokeRecord = c.startRecord program := by
    simp [Exchange.invokeRecord, Exchange.toolName?, exchanged, hargv, Call.startRecord,
      Call.toolName]
  rw [host.run_call c hargv]
  refine ⟨_, rfl, ?_⟩
  rw [hrecord]
  rfl

end AheadOfTime
