import AheadOfTime.Proofs.Outcome

/-! # The course of a run

    A run first checks its request and finds its tools, and so far has done
    nothing but to warn.  Then it works, notes a problem that stopped the work,
    cleans up, and is complete.  `Builder.Ran` lists the ways in which a run can
    come out, with the world each of them leaves, and `Builder.ran` says that
    there are no others; so what is said of all runs is said way by way. -/

namespace AheadOfTime

variable {α : Type}

/-! ## Before the work -/

/-- The tools of a toolchain, found among these files. -/
def Locator.find (l : Locator) (t : Toolchain) (files : FileTree) : Except Failure ToolPaths :=
  match l with
  | fixed tools => .ok tools
  | search searchPath => t.locateTools files searchPath

/-- To look for the tools is to look at the files. -/
theorem Locator.run_locate (l : Locator) (t : Toolchain) (w : World) :
    (l.locate t).run w = (l.find t w.files, w) := by
  cases l with
  | fixed tools => rfl
  | search searchPath => exact Build.run_ofResult _ w

/-- Tools that are not found lack the tool of one of the roles. -/
theorem Toolchain.locateTools_error {t : Toolchain} {files : FileTree} {searchPath : String}
    {e : Failure} (h : t.locateTools files searchPath = .error e) :
    ∃ role, t.requireTool files searchPath role = .error e := by
  -- the first role whose tool is missing fails the rest
  have hlater : ∀ {α : Type} (role : ToolRole) {f : Path → Except Failure α},
      (∀ path e, f path = .error e → ∃ role, t.requireTool files searchPath role = .error e) →
      ∀ e, (t.requireTool files searchPath role >>= f) = .error e →
        ∃ role, t.requireTool files searchPath role = .error e := by
    intro α role f hf e he
    rcases htool : t.requireTool files searchPath role with e' | path
    · rw [htool] at he
      exact ⟨role, htool.trans (congrArg Except.error (Except.error.inj he))⟩
    · rw [htool] at he
      exact hf path e he
  have hall : ∀ e, t.locateTools files searchPath = .error e →
      ∃ role, t.requireTool files searchPath role = .error e :=
    hlater _ fun _ => hlater _ fun _ => hlater _ fun _ => hlater _ fun _ => hlater _ fun _ =>
      hlater _ fun _ _ he => nomatch he
  exact hall e h

/-- The world with the warnings of a request that has passed the checks. -/
def World.warned (r : Request) (w : World) : World := { w with notices := w.notices ++ r.notices }

/-- What a build begins with leaves the world alone, but for the warnings and the
    first record. -/
theorem Builder.run_furnish (b : Builder) (r : Request) (w : World) :
    (b.furnish r).run w = match r.check b.toolchain w.files with
      | .error e => (.error e, w)
      | .ok () => match b.locator.find b.toolchain w.files with
        | .error e => (.error e, w.warned r)
        | .ok tools => (.ok (r.layout b.toolchain, tools),
            { w.warned r with log := w.log ++ [r.startRecord] }) := by
  unfold furnish
  rw [run_bind, Toolchain.run_validate]
  rcases r.check b.toolchain w.files with e | _
  · rfl
  · dsimp only
    rw [run_bind, Locator.run_locate]
    dsimp only
    rcases b.locator.find b.toolchain w.files with e | tools
    · rfl
    · rfl

/-! ## After the work -/

/-- The world after a step that came out like this: a problem is noted. -/
def World.noting (answer : Except Failure α) (w : World) : World :=
  match answer with
  | .error (.problem p) => { w with log := w.log ++ [Request.failedRecord p.report] }
  | _ => w

@[simp] theorem World.exchanges_noting (answer : Except Failure α) (w : World) :
    (w.noting answer).exchanges = w.exchanges := by
  unfold noting
  split <;> rfl

@[simp] theorem World.scratchIds_noting (answer : Except Failure α) (w : World) :
    (w.noting answer).scratchIds = w.scratchIds := by
  unfold noting
  split <;> rfl

@[simp] theorem World.scratch_noting (answer : Except Failure α) (w : World) :
    (w.noting answer).scratch = w.scratch := by
  unfold noting
  split <;> rfl

/-- To note a failure is to do the rest and then add a record. -/
theorem Builder.run_noteFailure (act : Build α) (w : World) :
    (noteFailure act).run w = ((act.run w).1, (act.run w).2.noting (act.run w).1) := by
  unfold noteFailure
  rw [run_tryCatch]
  rcases act.run w with ⟨(p | f) | a, v⟩ <;> rfl

/-- The world with other files, after the scratch session. -/
def World.cleaned (files : FileTree) (w : World) : World :=
  { w with files, scratch := { w.scratch with directory := none, files := [], isClosed := true } }

namespace Build

/-- Files that are removed one by one are removed by one look at the disk. -/
theorem run_forM_onDisk (files : List Path) (w : World) :
    (files.forM fun path => onDisk (Disk.removeIfPresent path)).run w
      = (onDisk (files.forM Disk.removeIfPresent)).run w := by
  induction files generalizing w with
  | nil => rfl
  | cons f later ih =>
      rw [run_forM_cons, run_onDisk, run_onDisk, run_forM_cons]
      rcases (Disk.removeIfPresent f).run w.files with ⟨fault | _, t⟩
      · rfl
      · exact (ih _).trans (run_onDisk _ _)

end Build

/-- What the end of a session does to the files: those that it handed out go one by
    one, and then its directory with whatever is left in it. -/
def Scratch.sweep (s : Scratch) : Disk Unit := do
  s.files.forM Disk.removeIfPresent
  match s.directory with
  | some directory => Disk.removeTree directory
  | none => return ()

/-- The sweep stops at the first file that cannot be removed, and then leaves the
    directory. -/
theorem Scratch.run_sweep (s : Scratch) (t : FileTree) : s.sweep.run t =
    match (s.files.forM Disk.removeIfPresent).run t with
    | (.error fault, t') => (.error fault, t')
    | (.ok _, t') => match s.directory with
      | none => (.ok (), t')
      | some directory => (Disk.removeTree directory).run t' := by
  unfold sweep
  rw [run_bind]
  rcases (s.files.forM Disk.removeIfPresent).run t with ⟨fault | _, t'⟩
  · rfl
  · rcases s.directory with _ | directory <;> rfl

namespace Build

/-- **Cleaning up** sweeps the files and ends the scratch session, and only a fault of
    the sweep stops it. -/
theorem run_cleanUp (w : World) : cleanUp.run w
    = ((w.scratch.sweep.run w.files).1.mapError Failure.fault,
      w.cleaned (w.scratch.sweep.run w.files).2) := by
  unfold cleanUp
  rw [run_bind_ok (run_get w), run_bind_ok (run_set _ w), run_bind, run_forM_onDisk, run_onDisk,
    Scratch.run_sweep]
  rcases (w.scratch.files.forM Disk.removeIfPresent).run w.files with ⟨fault | _, t⟩
  · rfl
  · rcases w.scratch.directory with _ | d
    · rfl
    · dsimp only
      rw [run_onDisk]
      rcases (Disk.removeTree d).run t with ⟨fault | _, t'⟩ <;> rfl

end Build

/-! ## Whole runs -/

namespace Builder

/-- The world in which the work on a request begins. -/
def begun (b : Builder) (r : Request) (w : World) : World :=
  { w.warned r with
    log := w.log ++ [r.startRecord]
    scratch := { label := "aotc-", parent := b.scratchParent } }

/-- The request was worked on with these tools, and the work came out like this. -/
structure Worked (b : Builder) (r : Request) (w : World) (tools : ToolPaths)
    (answer : Except Failure (List Path)) (v : World) : Prop where
  check : r.check b.toolchain w.files = .ok ()
  find : b.locator.find b.toolchain w.files = .ok tools
  work : (b.buildArtifacts r (r.layout b.toolchain) tools).run (b.begun r w) = (answer, v)

/-- The ways in which a run comes out. -/
inductive Ran (b : Builder) (r : Request) (w : World) : Except Failure BuildResult × World → Prop
  /-- The request did not pass the checks. -/
  | refused {e : Failure} : r.check b.toolchain w.files = .error e → Ran b r w (.error e, w)
  /-- The tools were not found. -/
  | unequipped {e : Failure} : r.check b.toolchain w.files = .ok () →
      b.locator.find b.toolchain w.files = .error e → Ran b r w (.error e, w.warned r)
  /-- The work failed. -/
  | failed {tools : ToolPaths} {e : Failure} {v : World} (files : FileTree) :
      b.Worked r w tools (.error e) v →
      Ran b r w (.error e, (v.noting (.error e : Except Failure (List Path))).cleaned files)
  /-- The work was done, or had failed, but cleaning up did fail. -/
  | stuck {tools : ToolPaths} {answer : Except Failure (List Path)} {v : World} (f : Fault)
      (files : FileTree) : b.Worked r w tools answer v →
      Ran b r w (.error (.fault f), (v.noting answer).cleaned files)
  /-- The request was built. -/
  | built {tools : ToolPaths} {artifacts : List Path} {v : World} (files : FileTree) :
      b.Worked r w tools (.ok artifacts) v →
      Ran b r w (.ok ⟨artifacts, v.log ++ [Request.completeRecord artifacts]⟩,
        { v.cleaned files with log := v.log ++ [Request.completeRecord artifacts] })

/-- **Every run** comes out in one of these ways. -/
theorem ran (b : Builder) (r : Request) (w : World) : b.Ran r w ((b.run r).run w) := by
  rw [run_eq, run_bind, run_furnish]
  rcases hcheck : r.check b.toolchain w.files with e | _
  · exact .refused hcheck
  · dsimp only
    rcases hfind : b.locator.find b.toolchain w.files with e | tools
    · exact .unequipped hcheck hfind
    · have hopened : (Build.openScratch b.scratchParent "aotc-").run
          { w.warned r with log := w.log ++ [r.startRecord] } = (.ok (), b.begun r w) := rfl
      dsimp only
      rw [run_bind_ok hopened, run_bind, Build.run_ensuring, run_noteFailure]
      rcases hwork : (b.buildArtifacts r (r.layout b.toolchain) tools).run (b.begun r w)
        with ⟨answer, v⟩
      have hworked : b.Worked r w tools answer v := ⟨hcheck, hfind, hwork⟩
      dsimp only
      rw [Build.run_cleanUp]
      -- a fault of the cleaning is what the run ends with, whatever the work came to
      rcases (v.noting answer).scratch.sweep.run (v.noting answer).files with ⟨f | _, files⟩
      · exact .stuck f files hworked
      · cases answer with
        | error e => exact .failed files hworked
        | ok artifacts => exact Ran.built (v := v) files hworked

variable {b : Builder} {r : Request} {w v : World} {tools : ToolPaths}
  {answer : Except Failure (List Path)}

/-- Behind the work, a run notes the problem that has stopped it, and cleans up. -/
theorem Worked.run_eq (h : b.Worked r w tools answer v) : (b.run r).run w =
    match Build.cleanUp.run (v.noting answer) with
    | (.error e, u) => (.error e, u)
    | (.ok (), u) => match answer with
      | .error e => (.error e, u)
      | .ok artifacts => (.ok ⟨artifacts, u.log ++ [Request.completeRecord artifacts]⟩,
          { u with log := u.log ++ [Request.completeRecord artifacts] }) := by
  have hopened : (Build.openScratch b.scratchParent "aotc-").run
      { w.warned r with log := w.log ++ [r.startRecord] } = (.ok (), b.begun r w) := rfl
  rw [Builder.run_eq, run_bind, run_furnish, h.check]
  dsimp only
  rw [h.find]
  dsimp only
  rw [run_bind_ok hopened, run_bind, Build.run_ensuring, run_noteFailure, h.work]
  dsimp only
  -- the answer is the cleaning's failure, if it fails
  rcases Build.cleanUp.run (v.noting answer) with ⟨e | _, u⟩
  · rfl
  · cases answer with
    | error e => rfl
    | ok artifacts => rfl

/-- A run of a request that was worked on has called what the work has called. -/
theorem Worked.exchanges_run (h : b.Worked r w tools answer v) :
    ((b.run r).run w).2.exchanges = v.exchanges := by
  rw [h.run_eq, Build.run_cleanUp]
  rcases (v.noting answer).scratch.sweep.run (v.noting answer).files with ⟨f | _, files⟩
  · exact World.exchanges_noting _ _
  · rcases answer with e | artifacts
    · exact World.exchanges_noting _ _
    · rfl

/-- A request is worked on, or its run changes no file and calls no tool. -/
theorem worked_or (b : Builder) (r : Request) (w : World) :
    (∃ tools answer v, b.Worked r w tools answer v) ∨
      (((b.run r).run w).2.files = w.files ∧ ((b.run r).run w).2.exchanges = w.exchanges) := by
  have hran := b.ran r w
  generalize (b.run r).run w = outcome at hran ⊢
  cases hran with
  | refused _ => exact .inr ⟨rfl, rfl⟩
  | unequipped _ _ => exact .inr ⟨rfl, rfl⟩
  | failed files hworked => exact .inl ⟨_, _, _, hworked⟩
  | stuck f files hworked => exact .inl ⟨_, _, _, hworked⟩
  | built files hworked => exact .inl ⟨_, _, _, hworked⟩

end Builder

end AheadOfTime
