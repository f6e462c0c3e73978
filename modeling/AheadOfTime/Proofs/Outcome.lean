import AheadOfTime.Build.Run

/-! # How steps of a build come out

    A step of a build is a function of the world it starts in, and an operation on
    files is one of the tree it starts in.  This file says, for every way of
    putting steps together and for every elementary step, what the whole answers
    and which world it leaves, so that statements about runs are proved from
    equations and never by opening the monad.

    The one step that lets a tool work is `Host.run`; `run_hostRun` is its
    equation, with `Host.asked` as the world behind the call.  What is to hold however a
    step comes out is proved from the ways in which it can: `Host.Called` lists them for
    a command, `Build.GivesDirectory` and `Build.HandsOut` for the scratch files. -/

namespace AheadOfTime

variable {α β : Type}

/-- An answer that is known to be there. -/
theorem eq_ok_of_toOption {ε : Type} {x : Except ε α} {a : α} (h : x.toOption = some a) :
    x = .ok a := by
  cases x with
  | error e => exact nomatch h
  | ok b => exact congrArg Except.ok (Option.some.inj h)

/-! ## Putting steps together -/

section

variable {ε σ : Type}

/-- What the bind of the state monad does. -/
private theorem bind_state (m : StateM σ α) (g : α → StateM σ β) (s : σ) :
    (m >>= g) s = g (m s).1 (m s).2 := rfl

/-- The second step starts where the first one ended, unless that one failed. -/
theorem run_bind (x : ExceptT ε (StateM σ) α) (f : α → ExceptT ε (StateM σ) β) (s : σ) :
    (x >>= f).run s = match x.run s with
      | (.ok a, s') => (f a).run s'
      | (.error e, s') => (.error e, s') := by
  rw [ExceptT.run_bind, bind_state]
  rcases x.run s with ⟨_ | a, s'⟩ <;> rfl

/-- Behind an action that succeeds, the next one starts from the world it leaves. -/
theorem run_bind_ok {x : ExceptT ε (StateM σ) α} {f : α → ExceptT ε (StateM σ) β} {s s' : σ}
    {a : α} (h : x.run s = (.ok a, s')) : (x >>= f).run s = (f a).run s' := by
  rw [run_bind, h]

/-- Behind an action that fails, nothing is done. -/
theorem run_bind_error {x : ExceptT ε (StateM σ) α} {f : α → ExceptT ε (StateM σ) β} {s s' : σ}
    {e : ε} (h : x.run s = (.error e, s')) : (x >>= f).run s = (.error e, s') := by
  rw [run_bind, h]

theorem run_map (f : α → β) (x : ExceptT ε (StateM σ) α) (s : σ) :
    (f <$> x).run s = match x.run s with
      | (.ok a, s') => (.ok (f a), s')
      | (.error e, s') => (.error e, s') := by
  rw [map_eq_pure_bind, run_bind]
  rcases x.run s with ⟨_ | a, s'⟩ <;> rfl

/-- A handler starts where the failure left the state. -/
theorem run_tryCatch (x : ExceptT ε (StateM σ) α) (h : ε → ExceptT ε (StateM σ) α) (s : σ) :
    (tryCatch x h).run s = match x.run s with
      | (.ok a, s') => (.ok a, s')
      | (.error e, s') => (h e).run s' := by
  show ExceptT.tryCatch x h s = _
  unfold ExceptT.tryCatch ExceptT.mk
  rw [bind_state]
  show _ = match x s with
    | (.ok a, s') => _
    | (.error e, s') => _
  rcases x s with ⟨_ | a, s'⟩ <;> rfl

/-- A failure is not an answer. -/
theorem error_ne_ok {e : ε} {a : α} {s s' : σ} :
    ((.error e, s) : Except ε α × σ) ≠ (.ok a, s') := by
  intro h
  cases h

theorem ok_ne_error {a : α} {e : ε} {s s' : σ} :
    ((.ok a, s) : Except ε α × σ) ≠ (.error e, s') := by
  intro h
  cases h

/-- What a sequence of two steps answers, both of them do. -/
theorem run_bind_eq_ok {x : ExceptT ε (StateM σ) α} {f : α → ExceptT ε (StateM σ) β} {s s' : σ}
    {b : β} (h : (x >>= f).run s = (.ok b, s')) :
    ∃ a s₁, x.run s = (.ok a, s₁) ∧ (f a).run s₁ = (.ok b, s') := by
  rw [run_bind] at h
  rcases hx : x.run s with ⟨e | a, s₁⟩
  · rw [hx] at h
    exact absurd h error_ne_ok
  · rw [hx] at h
    exact ⟨a, s₁, rfl, h⟩

@[simp] theorem run_pure (a : α) (s : σ) :
    (pure a : ExceptT ε (StateM σ) α).run s = (.ok a, s) := rfl

@[simp] theorem run_get (s : σ) : (get : ExceptT ε (StateM σ) σ).run s = (.ok s, s) := rfl

@[simp] theorem run_set (s' s : σ) :
    (set s' : ExceptT ε (StateM σ) PUnit).run s = (.ok ⟨⟩, s') := rfl

@[simp] theorem run_modify (f : σ → σ) (s : σ) :
    (modify f : ExceptT ε (StateM σ) PUnit).run s = (.ok ⟨⟩, f s) := rfl

/-- Steps for the elements of a list are taken one after the other. -/
theorem run_forM_cons (f : α → ExceptT ε (StateM σ) PUnit) (a : α) (later : List α) (s : σ) :
    ((a :: later).forM f).run s = match (f a).run s with
      | (.ok _, s') => (later.forM f).run s'
      | (.error e, s') => (.error e, s') := by
  show (f a >>= fun _ => later.forM f).run s = _
  rw [run_bind]
  rcases (f a).run s with ⟨_ | _, s'⟩ <;> rfl

/-- An answer that is there already is the answer, and the world is as it was. -/
theorem run_pure_eq_ok {a b : α} {s s' : σ}
    (h : (pure a : ExceptT ε (StateM σ) α).run s = (.ok b, s')) : a = b ∧ s = s' :=
  ⟨Except.ok.inj (congrArg Prod.fst h), congrArg Prod.snd h⟩

end

/-! ## Elementary steps -/

namespace Build

/-- A cleanup runs in any case, and its failure counts for more. -/
theorem run_ensuring (act : Build α) (cleanup : Build Unit) (w : World) :
    (ensuring act cleanup).run w = match cleanup.run (act.run w).2 with
      | (.ok (), v) => ((act.run w).1, v)
      | (.error e, v) => (.error e, v) := rfl

/-- If both come to an end well, the cleanup runs in the world that the action left. -/
theorem ensuring_ok {act : Build α} {cleanup : Build Unit} {a : α} {w v : World}
    (h : (ensuring act cleanup).run w = (.ok a, v)) :
    ∃ u, act.run w = (.ok a, u) ∧ cleanup.run u = (.ok (), v) := by
  rw [run_ensuring] at h
  rcases hcleanup : cleanup.run (act.run w).2 with ⟨e | ⟨⟩, u⟩
  · rw [hcleanup] at h
    exact absurd h error_ne_ok
  · rw [hcleanup] at h
    have hanswer : (act.run w).1 = .ok a := congrArg (fun answer => answer.1) h
    have hworld : u = v := congrArg (fun answer => answer.2) h
    exact ⟨(act.run w).2, Prod.ext hanswer rfl, hworld ▸ hcleanup⟩

@[simp] theorem run_complain (p : Problem) (w : World) :
    (complain p : Build α).run w = (.error (.problem p), w) := rfl

@[simp] theorem run_log (r : Record) (w : World) :
    (log r).run w = (.ok (), { w with log := w.log ++ [r] }) := rfl

@[simp] theorem run_warn (n : Notice) (w : World) :
    (warn n).run w = (.ok (), { w with notices := w.notices ++ [n] }) := rfl

theorem run_onDisk (act : Disk α) (w : World) :
    (onDisk act).run w = match act.run w.files with
      | (.ok a, files) => (.ok a, { w with files })
      | (.error fault, files) => (.error (.fault fault), { w with files }) := rfl

theorem files_onDisk (act : Disk α) (w : World) :
    ((onDisk act).run w).2.files = (act.run w.files).2 := by
  rw [run_onDisk]
  rcases act.run w.files with ⟨_ | _, files⟩ <;> rfl

/-- What succeeds on the disk leaves the rest of the world as it was. -/
theorem onDisk_ok {act : Disk α} {a : α} {w v : World}
    (h : (onDisk act).run w = (.ok a, v)) :
    ∃ files, act.run w.files = (.ok a, files) ∧ v = { w with files } := by
  rw [run_onDisk] at h
  rcases hact : act.run w.files with ⟨fault | a', files⟩
  · rw [hact] at h
    exact absurd h error_ne_ok
  · rw [hact] at h
    rw [← Except.ok.inj (congrArg Prod.fst h)]
    exact ⟨files, rfl, (congrArg Prod.snd h).symm⟩

/-- The answer of a check leaves the world alone. -/
theorem run_ofChecked (result : Except Problem α) (w : World) :
    (ofChecked result).run w = (result.mapError Failure.problem, w) := by
  cases result <;> rfl

theorem run_ofFallible (result : Except Fault α) (w : World) :
    (ofFallible result).run w = (result.mapError Failure.fault, w) := by
  cases result <;> rfl

/-- What has been checked is the answer, and the world is as it was. -/
theorem run_ofChecked_eq_ok {result : Except Problem α} {a : α} {w v : World}
    (h : (ofChecked result).run w = (.ok a, v)) : result = .ok a ∧ w = v := by
  rw [run_ofChecked] at h
  refine ⟨?_, congrArg Prod.snd h⟩
  have hfst := congrArg Prod.fst h
  cases result with
  | error p => exact nomatch hfst
  | ok b => exact congrArg Except.ok (Except.ok.inj hfst)

theorem run_ofFallible_eq_ok {result : Except Fault α} {a : α} {w v : World}
    (h : (ofFallible result).run w = (.ok a, v)) : result = .ok a ∧ w = v := by
  rw [run_ofFallible] at h
  refine ⟨?_, congrArg Prod.snd h⟩
  have hfst := congrArg Prod.fst h
  cases result with
  | error fault => exact nomatch hfst
  | ok b => exact congrArg Except.ok (Except.ok.inj hfst)

theorem run_ofResult (result : Except Failure α) (w : World) :
    (ofResult result).run w = (result, w) := by
  cases result <;> rfl

end Build

/-! ## Scratch files -/

namespace World

/-- The next scratch directory as it is written. -/
def scratchText (w : World) : String :=
  Scratch.directoryText (w.scratch.parent.getD w.temporary) w.scratch.label
    (w.scratchDirectories + 1)

/-- The world with one more scratch file handed out. -/
def withScratchFile (w : World) (path : Path) : World :=
  { w with
    scratchIds := w.scratchIds + 1
    scratch := { w.scratch with files := w.scratch.files ++ [path] } }

end World

namespace Build

/-- A session has at most one directory: the one it has, or a new one. -/
theorem run_scratchDirectory (w : World) :
    scratchDirectory.run w = match w.scratch.directory with
      | some directory => (.ok directory, w)
      | none =>
        match (Disk.makeDirectoryAs (.ofString w.scratchText) w.scratchText).run w.files with
        | (.ok (), files) => (.ok (.ofString w.scratchText),
            { w with
              scratchDirectories := w.scratchDirectories + 1
              files
              scratch := { w.scratch with directory := some (.ofString w.scratchText) } })
        | (.error fault, files) => (.error (.fault fault),
            { w with scratchDirectories := w.scratchDirectories + 1, files }) := by
  unfold scratchDirectory
  rw [run_bind_ok (run_get w)]
  rcases w.scratch.directory with _ | directory
  · unfold World.scratchText
    dsimp only
    rw [run_bind_ok (run_set _ w), run_bind, run_onDisk]
    rcases (Disk.makeDirectoryAs _ _).run w.files with ⟨_ | _, files⟩ <;> rfl
  · rfl

/-- The ways in which a session is asked for its directory. -/
inductive GivesDirectory (w : World) : Except Failure Path × World → Prop
  /-- It has one. -/
  | standing {d : Path} : w.scratch.directory = some d → GivesDirectory w (.ok d, w)
  /-- A new one is made. -/
  | made {files : FileTree} : w.scratch.directory = none →
      (Disk.makeDirectoryAs (.ofString w.scratchText) w.scratchText).run w.files
        = (.ok (), files) →
      GivesDirectory w (.ok (.ofString w.scratchText),
        { w with
          scratchDirectories := w.scratchDirectories + 1
          files
          scratch := { w.scratch with directory := some (.ofString w.scratchText) } })
  /-- A new one cannot be made. -/
  | refused {fault : Fault} {files : FileTree} : w.scratch.directory = none →
      (Disk.makeDirectoryAs (.ofString w.scratchText) w.scratchText).run w.files
        = (.error fault, files) →
      GivesDirectory w (.error (.fault fault),
        { w with scratchDirectories := w.scratchDirectories + 1, files })

/-- **The scratch directory** is given in one of the ways listed. -/
theorem givesDirectory (w : World) : GivesDirectory w (scratchDirectory.run w) := by
  rw [run_scratchDirectory]
  rcases hdirectory : w.scratch.directory with _ | d
  · dsimp only
    rcases hmake : (Disk.makeDirectoryAs (.ofString w.scratchText) w.scratchText).run w.files
      with ⟨fault | _, files⟩
    · exact .refused hdirectory hmake
    · exact .made hdirectory hmake
  · exact .standing hdirectory

/-- The directory that is given is the session's from then on; if it was so before, no
    file is touched. -/
theorem scratchDirectory_ok {d : Path} {w v : World}
    (h : scratchDirectory.run w = (.ok d, v)) :
    v.scratch.directory = some d ∧ (w.scratch.directory ≠ none → v.files = w.files) := by
  have hgives := givesDirectory w
  rw [h] at hgives
  cases hgives with
  | standing hdirectory => exact ⟨hdirectory, fun _ => rfl⟩
  | made hnone _ => exact ⟨rfl, fun hmade => absurd hnone hmade⟩

/-- A scratch file is a name below the session's directory. -/
theorem run_allocate (host : Host) (stem extension : String) (w : World) :
    (allocate host stem extension).run w =
      if w.scratch.isClosed then (.error (.problem (.scratchClosed stem)), w)
      else match scratchDirectory.run w with
        | (.ok directory, v) =>
          let path := directory.child
            (Scratch.fileName stem (host.scratchId (v.scratchIds + 1)) extension)
          (.ok path, v.withScratchFile path)
        | (.error e, v) => (.error e, v) := by
  unfold allocate
  rw [run_bind_ok (run_get w)]
  by_cases closed : w.scratch.isClosed = true
  · rw [if_pos closed, if_pos closed, run_bind_error (run_complain _ w)]
  · rw [if_neg closed, if_neg closed, run_bind]
    rcases scratchDirectory.run w with ⟨_ | directory, v⟩ <;> rfl

/-- The ways in which a session is asked for a scratch file. -/
inductive HandsOut (host : Host) (stem extension : String) (w : World) :
    Except Failure Path × World → Prop
  /-- The session is over. -/
  | closed : w.scratch.isClosed = true →
      HandsOut host stem extension w (.error (.problem (.scratchClosed stem)), w)
  /-- The session has no directory and gets none. -/
  | refused {e : Failure} {v : World} : w.scratch.isClosed = false →
      scratchDirectory.run w = (.error e, v) → HandsOut host stem extension w (.error e, v)
  /-- The file is handed out in the directory of the session. -/
  | given {d path : Path} {v : World} : w.scratch.isClosed = false →
      scratchDirectory.run w = (.ok d, v) →
      path = d.child (Scratch.fileName stem (host.scratchId (v.scratchIds + 1)) extension) →
      HandsOut host stem extension w (.ok path, v.withScratchFile path)

/-- **A scratch file** is handed out in one of the ways listed. -/
theorem handsOut (host : Host) (stem extension : String) (w : World) :
    HandsOut host stem extension w ((allocate host stem extension).run w) := by
  rw [run_allocate]
  rcases hclosed : w.scratch.isClosed with _ | _
  · rw [if_neg (by decide)]
    rcases hdirectory : scratchDirectory.run w with ⟨e | d, v⟩
    · exact .refused hclosed hdirectory
    · exact .given hclosed hdirectory rfl
  · exact .closed hclosed

/-- A scratch file is handed out in a directory, which is made only if the
    session has none yet. -/
theorem allocate_ok {host : Host} {stem extension : String} {path : Path} {w v : World}
    (h : (allocate host stem extension).run w = (.ok path, v)) :
    v.scratch.directory ≠ none ∧ path ∈ v.scratch.files ∧
      (w.scratch.directory ≠ none → v.files = w.files) := by
  have hhands := handsOut host stem extension w
  rw [h] at hhands
  cases hhands with
  | @given d _ u _ hdirectory _ =>
      obtain ⟨hmade, hfiles⟩ := scratchDirectory_ok hdirectory
      refine ⟨?_, List.mem_append_right _ List.mem_cons_self, hfiles⟩
      show u.scratch.directory ≠ none
      rw [hmade]
      exact nofun

end Build

/-! ## Tool calls -/

namespace Host

/-- The exchange that a call in the world `w` comes to. -/
def exchanged (host : Host) (c : Call) (w : World) : Exchange :=
  ⟨c, w.files, (host.tools w.exchanges c w.files).1⟩

/-- The world behind a call: the tool has worked on the files, and the start of
    its program is in the log. -/
def asked (host : Host) (c : Call) (program : String) (w : World) : World :=
  { w with
    log := w.log ++ [c.startRecord program]
    files := (host.tools w.exchanges c w.files).2
    exchanges := w.exchanges ++ [host.exchanged c w] }

/-- The files that the tool of an exchange left, where `history` was before. -/
def left (host : Host) (history : List Exchange) (x : Exchange) : FileTree :=
  (host.tools history x.call x.found).2

/-- A call that names a program is made, whatever the reply. -/
theorem run_call (host : Host) (c : Call) {program : String} {arguments : List String}
    (h : c.argv = program :: arguments) (w : World) :
    (host.call c).run w = (.ok (host.exchanged c w).reply, host.asked c program w) := by
  unfold call
  rw [h]
  rfl

/-- A call that names no program is not made. -/
theorem run_call_of_nil (host : Host) {c : Call} (h : c.argv = []) (w : World) :
    (host.call c).run w = (.error (.fault .missingArgument), w) := by
  unfold call
  rw [h]
  rfl

end Host

/-- What a reply comes to. -/
theorem Call.run_conclude (c : Call) {program : String} {arguments : List String}
    (h : c.argv = program :: arguments) (reply : Reply) (w : World) :
    (c.conclude reply).run w = match reply with
      | .missing => (.error (.problem (.toolNotStarted program)), w)
      | .failed fault => (.error (.fault fault), w)
      | .exited status output =>
        if c.isChecked ∧ status ≠ 0 then
          (.error (.problem (.toolFailed (Call.toolName program) c.stage.name c.input c.arch
              ⟨c.argv, output, status⟩)),
            { w with log := w.log ++ [c.failureRecord program status] })
        else (.ok ⟨c.argv, status, output⟩, w) := by
  unfold conclude
  rw [h]
  rcases reply with ⟨status, output⟩ | _ | fault
  · dsimp only
    by_cases failed : c.isChecked ∧ status ≠ 0
    · rw [if_pos failed, if_pos failed, run_bind_ok (Build.run_log _ _)]
      rfl
    · rw [if_neg failed, if_neg failed]
      rfl
  · rfl
  · rfl

namespace Host

/-- What a command comes to, by the reply to its call. -/
theorem run_hostRun (host : Host) (c : Call) {program : String} {arguments : List String}
    (h : c.argv = program :: arguments) (w : World) :
    (host.run c).run w = match (host.exchanged c w).reply with
      | .missing => (.error (.problem (.toolNotStarted program)), host.asked c program w)
      | .failed fault => (.error (.fault fault), host.asked c program w)
      | .exited status output =>
        if c.isChecked ∧ status ≠ 0 then
          (.error (.problem (.toolFailed (Call.toolName program) c.stage.name c.input c.arch
              ⟨c.argv, output, status⟩)),
            { host.asked c program w with
              log := (host.asked c program w).log ++ [c.failureRecord program status] })
        else (.ok ⟨c.argv, status, output⟩, host.asked c program w) := by
  unfold run
  rw [run_bind_ok (host.run_call c h w), c.run_conclude h]

/-- A command that names no program calls none. -/
theorem run_hostRun_of_nil (host : Host) {c : Call} (h : c.argv = []) (w : World) :
    (host.run c).run w = (.error (.fault .missingArgument), w) := by
  unfold run
  rw [run_bind_error (host.run_call_of_nil h w)]

/-- The ways in which a command comes out. -/
inductive Called (host : Host) (c : Call) (w : World) : Except Failure ToolResult × World → Prop
  /-- It names no program. -/
  | unnamed : c.argv = [] → Called host c w (.error (.fault .missingArgument), w)
  /-- The program is not there. -/
  | missing {program : String} {arguments : List String} : c.argv = program :: arguments →
      (host.exchanged c w).reply = .missing →
      Called host c w (.error (.problem (.toolNotStarted program)), host.asked c program w)
  /-- The system refuses to start it. -/
  | failed {program : String} {arguments : List String} {fault : Fault} :
      c.argv = program :: arguments → (host.exchanged c w).reply = .failed fault →
      Called host c w (.error (.fault fault), host.asked c program w)
  /-- It ends with a status that is looked at and is an error. -/
  | rejected {program : String} {arguments : List String} {status : Int} {output : String} :
      c.argv = program :: arguments → (host.exchanged c w).reply = .exited status output →
      c.isChecked = true → status ≠ 0 →
      Called host c w (.error (.problem (.toolFailed (Call.toolName program) c.stage.name c.input
          c.arch ⟨c.argv, output, status⟩)),
        { host.asked c program w with
          log := (host.asked c program w).log ++ [c.failureRecord program status] })
  /-- It answers. -/
  | answered {program : String} {arguments : List String} {status : Int} {output : String} :
      c.argv = program :: arguments → (host.exchanged c w).reply = .exited status output →
      (c.isChecked = true → status = 0) →
      Called host c w (.ok ⟨c.argv, status, output⟩, host.asked c program w)

/-- **Every command** comes out in one of these ways. -/
theorem called (host : Host) (c : Call) (w : World) : host.Called c w ((host.run c).run w) := by
  rcases hargv : c.argv with _ | ⟨program, arguments⟩
  · rw [run_hostRun_of_nil host hargv]
    exact .unnamed hargv
  · rw [run_hostRun host c hargv]
    rcases hreply : (host.exchanged c w).reply with ⟨status, output⟩ | _ | fault
    · dsimp only
      by_cases hrejected : c.isChecked ∧ status ≠ 0
      · rw [if_pos hrejected]
        exact .rejected hargv hreply hrejected.1 hrejected.2
      · rw [if_neg hrejected]
        refine .answered hargv hreply fun hchecked => ?_
        exact Decidable.of_not_not fun hne => hrejected ⟨hchecked, hne⟩
    · exact .missing hargv hreply
    · exact .failed hargv hreply

/-- A command that answers has run, and if it is checked with success. -/
theorem run_hostRun_eq_ok {host : Host} {c : Call} {w v : World} {result : ToolResult}
    (h : (host.run c).run w = (.ok result, v)) :
    ∃ program status output, v = host.asked c program w ∧
      (host.exchanged c w).reply = .exited status output ∧
      (c.isChecked = true → status = 0) ∧ result = ⟨c.argv, status, output⟩ := by
  have hcalled := host.called c w
  rw [h] at hcalled
  cases hcalled with
  | answered _ hreply hzero => exact ⟨_, _, _, rfl, hreply, hzero, rfl⟩

/-- A command that fails has not succeeded, and it fails as a failure of the
    tool only if the tool ended by itself. -/
theorem run_hostRun_eq_error {host : Host} {c : Call} {w v : World} {e : Failure}
    (hargv : c.argv ≠ []) (h : (host.run c).run w = (.error e, v)) :
    v.files = host.left w.exchanges (host.exchanged c w) ∧
      (∀ output, (host.exchanged c w).reply ≠ .exited 0 output) ∧
      ((∃ status output, (host.exchanged c w).reply = .exited status output) ↔
        ∃ tool stage input arch exit, e = .problem (.toolFailed tool stage input arch exit)) := by
  have hcalled := host.called c w
  rw [h] at hcalled
  -- a tool that is missing or refused by the system has no status
  cases hcalled with
  | unnamed hnone => exact absurd hnone hargv
  | missing _ hreply =>
      rw [hreply]
      exact ⟨rfl, nofun, iff_of_false nofun nofun⟩
  | failed _ hreply =>
      rw [hreply]
      exact ⟨rfl, nofun, iff_of_false nofun nofun⟩
  | rejected _ hreply _ hne =>
      rw [hreply]
      refine ⟨rfl, ?_, ?_⟩
      · intro output hzero
        exact hne (Reply.exited.inj hzero).1
      · exact ⟨fun _ => ⟨_, _, _, _, _, rfl⟩, fun _ => ⟨_, _, rfl⟩⟩

/-- Whatever comes of a command, its call is the last exchange of the world
    behind it. -/
theorem exchanges_hostRun (host : Host) {c : Call} (h : c.argv ≠ []) (w : World) :
    ((host.run c).run w).2.exchanges = w.exchanges ++ [host.exchanged c w] := by
  have hcalled := host.called c w
  generalize (host.run c).run w = outcome at hcalled ⊢
  cases hcalled with
  | unnamed hnone => exact absurd hnone h
  | missing | failed | rejected | answered => rfl

end Host

/-! ## Warnings and checks -/

namespace Build

theorem run_forM_warn (notices : List Notice) (w : World) :
    (notices.forM warn).run w = (.ok (), { w with notices := w.notices ++ notices }) := by
  induction notices generalizing w with
  | nil =>
      rw [List.append_nil]
      rfl
  | cons n later ih =>
      rw [run_forM_cons, run_warn]
      dsimp only
      rw [ih]
      simp only [List.append_assoc, List.singleton_append]

end Build

/-- Validation changes nothing but the warnings, and those only if the request
    passes. -/
theorem Toolchain.run_validate (t : Toolchain) (r : Request) (w : World) :
    (t.validate r).run w = match r.check t w.files with
      | .ok () => (.ok (r.layout t), { w with notices := w.notices ++ r.notices })
      | .error e => (.error e, w) := by
  unfold validate
  rw [run_bind_ok (run_get w), run_bind, Build.run_ofResult]
  rcases r.check t w.files with e | _
  · rfl
  · dsimp only
    rw [run_bind_ok (Build.run_forM_warn _ _)]
    rfl

/-- What two checks let through, both of them do. -/
theorem Request.both_ok {x : Except Failure PUnit} {y : PUnit → Except Failure α} {a : α}
    (h : (x >>= y) = .ok a) : x = .ok () ∧ y () = .ok a := by
  rcases x with e | ⟨⟩
  · exact nomatch h
  · exact ⟨rfl, h⟩

/-- An input that passes is a file, and one of a sort that the kind of request takes. -/
theorem Request.checkInput_ok {r : Request} {t : Toolchain} {files : FileTree} {input : Path}
    (h : r.checkInput t files input = .ok ()) :
    files.isFile? input = .ok true ∧ input.extension ∈ r.allowedExtensions t := by
  unfold checkInput looked at h
  rcases hfile : files.isFile? input with fault | _ | _
  · rw [hfile] at h
    exact nomatch h
  · rw [hfile] at h
    exact nomatch h
  · rw [hfile] at h
    refine ⟨rfl, Decidable.of_not_not fun hnot => ?_⟩
    have hrefused : (if input.extension ∉ r.allowedExtensions t then
        throw (.problem (.unsupportedInput input r.kind (r.allowedExtensions t)))
        else pure () : Except Failure Unit) = .ok () := h
    rw [if_pos hnot] at hrefused
    exact nomatch hrefused

/-- The inputs of a request that passes are files of allowed extensions. -/
theorem Request.inputs_of_check {r : Request} {t : Toolchain} {files : FileTree}
    (h : r.check t files = .ok ()) :
    ∀ input ∈ r.inputs, files.isFile? input = .ok true ∧
      input.extension ∈ r.allowedExtensions t := by
  -- the inputs are the fourth of the checks
  have hinputs : r.checkInputs t files r.inputs = .ok () :=
    (both_ok (both_ok (both_ok (both_ok h).2).2).2).1
  revert hinputs
  generalize r.inputs = inputs
  intro hinputs
  induction inputs with
  | nil =>
      intro input hin
      exact nomatch hin
  | cons input later ih =>
      obtain ⟨hinput, hlater⟩ := both_ok hinputs
      intro other hin
      rcases List.mem_cons.mp hin with rfl | hin
      · exact checkInput_ok hinput
      · exact ih hlater other hin

/-- What passes validation has passed the checks. -/
theorem Toolchain.validate_ok {t layout : Toolchain} {r : Request} {w v : World}
    (h : (t.validate r).run w = (.ok layout, v)) :
    r.check t w.files = .ok () ∧ r.layout t = layout := by
  rw [run_validate] at h
  rcases hcheck : r.check t w.files with e | _
  · rw [hcheck] at h
    exact absurd h error_ne_ok
  · rw [hcheck] at h
    exact ⟨rfl, Except.ok.inj (congrArg Prod.fst h)⟩

/-- A symbol listing is read without a look at the world, and changes nothing
    but the warnings. -/
theorem SymbolListing.run_entryPoint? (listing : String) (source : Option Path) (w : World) :
    (entryPoint? listing source).run w = match candidates listing with
      | [] => (.ok none, w)
      | [symbol] => ((EntryPoint.ofSymbol symbol).map some |>.mapError Failure.problem, w)
      | symbol :: others => ((EntryPoint.ofSymbol symbol).map some |>.mapError Failure.problem,
          { w with notices := w.notices ++
            [.severalEntryPoints source (others.length + 1) symbol] }) := by
  unfold entryPoint?
  rcases candidates listing with _ | ⟨symbol, _ | ⟨other, others⟩⟩
  · rfl
  · dsimp only
    rw [run_map, Build.run_ofChecked]
    rcases EntryPoint.ofSymbol symbol with _ | _ <;> rfl
  · dsimp only
    rw [run_bind_ok (Build.run_warn _ _), run_map, Build.run_ofChecked]
    rcases EntryPoint.ofSymbol symbol with _ | _ <;> rfl

/-- A listing that shows no entry point has no candidate for one. -/
theorem SymbolListing.candidates_of_none {listing : String} {source : Option Path} {w : World}
    (h : ((entryPoint? listing source).run w).1 = .ok none) : candidates listing = [] := by
  have hnone : ∀ symbol, ((EntryPoint.ofSymbol symbol).map some).mapError Failure.problem
      ≠ .ok none := by
    intro symbol
    cases EntryPoint.ofSymbol symbol with
    | error p => exact nofun
    | ok e => exact nofun
  rw [run_entryPoint?] at h
  rcases hcandidates : candidates listing with _ | ⟨symbol, _ | ⟨other, others⟩⟩
  · rfl
  · rw [hcandidates] at h
    exact absurd h (hnone symbol)
  · rw [hcandidates] at h
    exact absurd h (hnone symbol)

/-- What stripping comes to: a failure that the tool reports itself takes the
    output away, and any other failure does not. -/
theorem Linker.run_strip (k : Linker) (output : Path) (flags : List String) (w : World) :
    (k.strip output flags).run w = match (k.host.run (k.stripCall output flags)).run w with
      | (.ok _, v) => (.ok output, v)
      | (.error (.problem (.toolFailed tool stage input arch exit)), v) =>
        match (Build.onDisk (Disk.removeIfPresent output)).run v with
        | (.ok (), u) => (.error (.problem (.toolFailed tool stage input arch exit)), u)
        | (.error e, u) => (.error e, u)
      | (.error e, v) => (.error e, v) := by
  unfold strip
  rw [run_tryCatch, run_bind]
  rcases (k.host.run (k.stripCall output flags)).run w with ⟨(p | f) | result, v⟩
  · -- only a failure of the tool is handled
    cases p <;> try rfl
    dsimp only
    rw [run_bind]
    rcases (Build.onDisk (Disk.removeIfPresent output)).run v with ⟨_ | _, u⟩ <;> rfl
  · rfl
  · rfl

/-- A strip that answers has stripped. -/
theorem Linker.run_strip_eq_ok {k : Linker} {output artifact : Path} {flags : List String}
    {w v : World} (h : (k.strip output flags).run w = (.ok artifact, v)) :
    artifact = output ∧ ∃ result,
      (k.host.run (k.stripCall output flags)).run w = (.ok result, v) := by
  rw [run_strip] at h
  revert h
  split
  · rename_i result u hrun
    intro h
    rw [hrun, ← show u = v from congrArg Prod.snd h]
    exact ⟨(Except.ok.inj (congrArg Prod.fst h)).symm, result, rfl⟩
  · split <;> exact nofun
  · exact nofun

/-! ## The parts of a build -/

namespace Builder

/-- The compiler of a build, once its flags are known. -/
def compilerFor (b : Builder) (r : Request) (layout : Toolchain) (tools : ToolPaths)
    (exceptionFlags bridgingFlags : List String) : Compiler where
  host := b.host
  tools
  archs := r.archs
  objectExtension := layout.objectExtension
  bridgingFlags
  exceptionFlags
  jobs := r.jobs

/-- The linker of a build. -/
def linkerFor (b : Builder) (r : Request) (layout : Toolchain) (tools : ToolPaths) : Linker where
  host := b.host
  tools
  toolchain := layout
  archs := r.archs

/-- Where an executable goes: to the request's output, or else beside its first
    input, without that one's extension. -/
def executableOutput (r : Request) : Build Path :=
  match r.output, r.inputs with
  | some output, _ => pure output
  | none, first :: _ => Build.ofFallible (first.withExtension "")
  | none, [] => Build.complain .noInputs

/-- What becomes of an object whose listing has been read: one without an entry
    point is refused as the first input of an executable, and else passed on with
    a record. -/
def settleObject (r : Request) (object : Path) (e : Option EntryPoint) : Build Unit :=
  if e.isSome then pure ()
  else if r.kind = .executable ∧ r.inputs.head? = some object then
    Build.complain (.noEntryPointListed object)
  else Build.log (Request.passThroughRecord object)

/-- An object that lists no entry point is passed through, unless a program begins with
    it. -/
theorem settleObject_none (r : Request) (object : Path) : settleObject r object none =
    if r.kind = .executable ∧ r.inputs.head? = some object then
      Build.complain (.noEntryPointListed object)
    else Build.log (Request.passThroughRecord object) := rfl

/-- The ready-made objects are looked into one after the other, each one once. -/
theorem scanPrebuilt_cons (b : Builder) (r : Request) (layout : Toolchain) (tools : ToolPaths)
    (input : Path) (later : List Path) (found : Prebuilt) :
    b.scanPrebuilt r layout tools (input :: later) found =
      if input.extension ≠ layout.objectExtension ∨ found.any (·.1 == input) then
        b.scanPrebuilt r layout tools later found
      else (do
        let e ← b.host.scanEntryPoint tools.nm input
        settleObject r input e
        b.scanPrebuilt r layout tools later (found ++ [(input, e)])) := by
  rw [scanPrebuilt]
  congr
  funext e
  cases e with
  | some e => rfl
  | none =>
      rw [settleObject_none]
      -- a program must not begin with an object that has no entry point
      by_cases hbody : r.kind = .executable ∧ r.inputs.head? = some input
      · simp only [if_pos hbody]
        rfl
      · simp only [if_neg hbody]
        rfl

/-- What is left of the work when the ready-made objects and the flags are
    known. -/
def produce (b : Builder) (r : Request) (layout : Toolchain) (c : Compiler) (k : Linker)
    (prebuilt : Prebuilt) : Build (List Path) :=
  match r.kind with
  | .object => buildObjects c r.output r.inputs
  | .bundle => buildBundles layout c k r.output r.inputs
  | .dylib => do
    let inputs ← b.linkInputs layout c prebuilt r.inputs
    return [← k.dylib inputs r.output r.linkerFlags]
  | .executable => do
    let inputs ← b.linkInputs layout c prebuilt r.inputs
    let output ← executableOutput r
    return [← k.executable inputs output r.static r.frameworks
      (withoutDylibOptions r.linkerFlags)]

/-- The first of the work: a look into the ready-made objects that are linked. -/
def readyMade (b : Builder) (r : Request) (layout : Toolchain) (tools : ToolPaths) :
    Build Prebuilt :=
  if r.kind.isPerInput then pure [] else b.scanPrebuilt r layout tools r.inputs []

/-- The flags for exceptions, asked for if there is something to compile. -/
def exceptionFlags (b : Builder) (r : Request) (layout : Toolchain) (tools : ToolPaths) :
    Build (List String) :=
  if r.inputs.any fun input => input.extension == layout.sourceExtension
    then b.host.probeExceptionFlags tools.backend else pure []

/-- The flags for bridging, looked up for what is linked statically. -/
def bridgingFlags (r : Request) (layout : Toolchain) : Build (List String) :=
  if r.static then layout.bridgingFlags r.frameworks else pure []

/-- The work on a request: ready-made objects and flags first, then the rest. -/
theorem buildArtifacts_eq (b : Builder) (r : Request) (layout : Toolchain) (tools : ToolPaths) :
    b.buildArtifacts r layout tools = (do
      let prebuilt ← b.readyMade r layout tools
      let exceptions ← b.exceptionFlags r layout tools
      let bridging ← bridgingFlags r layout
      b.produce r layout (b.compilerFor r layout tools exceptions bridging)
        (b.linkerFor r layout tools) prebuilt) := by
  obtain ⟨kind, inputs, output, _, _, _, _, static, _, _⟩ := r
  unfold buildArtifacts produce executableOutput compilerFor linkerFor readyMade exceptionFlags
    bridgingFlags
  rcases static <;> cases inputs.any fun input => input.extension == layout.sourceExtension
  all_goals cases kind with
  | object => rfl
  | bundle => rfl
  | dylib => rfl
  | executable => rcases output with _ | output <;> rcases inputs with _ | ⟨first, later⟩ <;> rfl

/-- What a build begins with: the request is checked, and the tools are found. -/
def furnish (b : Builder) (r : Request) : Build (Toolchain × ToolPaths) := do
  let layout ← b.toolchain.validate r
  let tools ← b.locator.locate b.toolchain
  Build.log r.startRecord
  return (layout, tools)

/-- A build works in a scratch session that is cleaned up in any case. -/
theorem run_eq (b : Builder) (r : Request) : b.run r = (do
    let (layout, tools) ← b.furnish r
    Build.openScratch b.scratchParent "aotc-"
    let artifacts ← Build.ensuring (noteFailure (b.buildArtifacts r layout tools)) Build.cleanUp
    Build.log (Request.completeRecord artifacts)
    return ⟨artifacts, (← get).log⟩) := by
  unfold run furnish
  simp only [bind_assoc, pure_bind]

/-- A build that succeeds leaves no note of a failure. -/
theorem noteFailure_ok {act : Build α} {a : α} {w v : World}
    (h : (noteFailure act).run w = (.ok a, v)) : act.run w = (.ok a, v) := by
  unfold noteFailure at h
  rw [run_tryCatch] at h
  rcases hact : act.run w with ⟨(p | f) | a', u⟩
  · rw [hact] at h
    exact absurd h error_ne_ok
  · rw [hact] at h
    exact absurd h error_ne_ok
  · rw [hact] at h
    exact h

end Builder

end AheadOfTime
