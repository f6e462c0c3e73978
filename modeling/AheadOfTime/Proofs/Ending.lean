import AheadOfTime.CommandLine.Run
import AheadOfTime.Proofs.Artifacts
import AheadOfTime.Proofs.Series

/-! # How a build ends

    A build answers, or it fails with a problem, which is then its last record and
    what the program prints.  There is a third way: the system refuses the build an
    operation on files, or no name can be made for an output.  Such a fault is
    handled by nobody, and it ends the program as well.

    `Builder.Refused` lists all operations that can be refused: looks at what the
    request names, what the work does to files, and the removal of scratch files.
    `run_ends` says that no other fault ends a build, but for those by which a call
    of a tool comes to nothing.  Either way the work has stopped there, unless
    architectures are compiled beside the one that is stopped. -/

namespace AheadOfTime

/-! ## Faults of operations on files -/

/-- The fault is about a path: the system refuses an operation on it, or it is no
    path that the system takes, or it cannot be made. -/
inductive Fault.OfPath : Fault → Prop where
  | refused (reason : Refusal) (path : String) : OfPath (.refused reason path)
  | nullByte : OfPath .nullByte
  | invalidExtension (extension : String) : OfPath (.invalidExtension extension)
  | emptyName (p : Path) : OfPath (.emptyName p)

namespace FileTree

variable {t : FileTree} {p : Path} {fault : Fault}

/-- Whatever is asked about a path fails as the look at it does. -/
theorem lookAt_of_asked {ask : Option Entry → Bool}
    (h : (do return ask (← t.lookAt p)) = (Except.error fault : Except Fault Bool)) :
    t.lookAt p = .error fault := by
  rcases hlook : t.lookAt p with other | e
  · rw [hlook] at h
    exact congrArg _ (Except.error.inj h)
  · rw [hlook] at h
    exact nomatch h

end FileTree

namespace Disk

variable {α β : Type}

/-- If the operation fails, it is by a fault about a path. -/
def FailsOfPath (act : Disk α) : Prop :=
  ∀ t fault t', act.run t = (.error fault, t') → fault.OfPath

/-- One behind the other, if both fail that way only. -/
theorem FailsOfPath.bind {x : Disk α} {f : α → Disk β} (hx : FailsOfPath x)
    (hf : ∀ a, FailsOfPath (f a)) : FailsOfPath (x >>= f) := by
  intro t fault t' h
  rcases hrun : x.run t with ⟨fault' | a, u⟩
  · rw [run_bind_error hrun] at h
    rw [← Except.error.inj (congrArg Prod.fst h)]
    exact hx t fault' u hrun
  · rw [run_bind_ok hrun] at h
    exact hf a u fault t' h

/-- A handler may stand behind it that fails that way only. -/
theorem FailsOfPath.tryCatch {x : Disk α} {handle : Fault → Disk α} (hx : FailsOfPath x)
    (hhandle : ∀ fault, fault.OfPath → FailsOfPath (handle fault)) :
    FailsOfPath (tryCatch x handle) := by
  intro t fault t' h
  rw [run_tryCatch] at h
  rcases hrun : x.run t with ⟨fault' | a, u⟩
  · rw [hrun] at h
    exact hhandle fault' (hx t fault' u hrun) u fault t' h
  · rw [hrun] at h
    exact absurd h ok_ne_error

end Disk

/-! ## What is looked at before the work -/

/-- The paths that the checks of a request look at. -/
inductive Request.LooksAt (r : Request) (t : Toolchain) : Path → Prop where
  | sdk {p : Path} : r.sdk = some p → LooksAt r t p
  | library : r.static = true → LooksAt r t (r.layout t).staticLibraryPath
  | input {p : Path} : p ∈ r.inputs → LooksAt r t p

/-- The paths that a build looks at before its work: those of the request, and those
    that tools are named by. -/
inductive Builder.LooksAt (b : Builder) (r : Request) : Path → Prop where
  | request {p : Path} : r.LooksAt b.toolchain p → LooksAt b r p
  | tool {searchPath : String} {role : ToolRole} : b.locator = .search searchPath →
      (b.toolchain.toolName role).toList.contains '/' = true →
      LooksAt b r (.ofString (b.toolchain.toolName role))

/-- A condition fails by a fault if a path of the request cannot be looked at. -/
theorem Request.looksAt_of_conditions {r : Request} {t : Toolchain} {files : FileTree} :
    ∀ c ∈ r.conditions t files, ∀ fault, c.answer = .error fault →
      ∃ p, r.LooksAt t p ∧ files.lookAt p = .error fault := by
  unfold conditions
  simp only [List.forall_mem_append]
  -- group by group; one that does not look at a path cannot fail by a fault
  refine ⟨⟨⟨⟨?_, ?_⟩, ?_⟩, ?_⟩, ?_⟩
  · rintro c hc fault h
    obtain ⟨sdk, hsdk, rfl⟩ := List.mem_map.mp hc
    exact ⟨sdk, .sdk (Option.mem_toList.mp hsdk), FileTree.lookAt_of_asked h⟩
  · rintro c hc fault h
    split at hc
    · rename_i hstatic
      rw [List.mem_singleton.mp hc] at h
      exact ⟨_, .library hstatic, FileTree.lookAt_of_asked h⟩
    · exact nomatch hc
  · rintro c hc fault h
    split at hc
    · rw [List.mem_singleton.mp hc] at h
      exact nomatch h
    · exact nomatch hc
  · rintro c hc fault h
    obtain ⟨input, hinput, hc⟩ := List.mem_flatMap.mp hc
    rcases List.mem_pair.mp hc with rfl | rfl
    · exact ⟨input, .input hinput, FileTree.lookAt_of_asked h⟩
    · exact nomatch h
  · rintro c hc fault h
    split at hc
    · obtain ⟨first, -, rfl⟩ := List.mem_map.mp hc
      exact nomatch h
    · exact nomatch hc

/-- A check that fails by a fault could not look at a path of the request. -/
theorem Request.looksAt_of_check {r : Request} {t : Toolchain} {files : FileTree} {fault : Fault}
    (h : r.check t files = .error (.fault fault)) :
    ∃ p, r.LooksAt t p ∧ files.lookAt p = .error fault := by
  rw [r.check_eq, Condition.settle_eq_error_iff] at h
  obtain ⟨before, c, after, hconditions, -, -, hfailure⟩ := h
  have hin : c ∈ r.conditions t files := by
    rw [hconditions]
    exact List.mem_append_right _ List.mem_cons_self
  refine looksAt_of_conditions c hin fault ?_
  unfold Condition.failure at hfailure
  split at hfailure
  · rename_i hanswer
    rw [hanswer, Failure.fault.inj hfailure]
  · exact nomatch hfailure

/-- A tool cannot be looked for if the path that it is named by is too long. -/
theorem Toolchain.lookAt_of_requireTool {t : Toolchain} {files : FileTree} {searchPath : String}
    {role : ToolRole} {fault : Fault}
    (h : t.requireTool files searchPath role = .error (.fault fault)) :
    (t.toolName role).toList.contains '/' = true ∧
      files.lookAt (.ofString (t.toolName role)) = .error fault := by
  unfold requireTool at h
  split at h
  · rename_i other hlocate
    rw [Failure.fault.inj (Except.error.inj h)] at hlocate
    unfold locateTool at hlocate
    dsimp only at hlocate
    split at hlocate
    · rename_i hslash
      have hprogram : files.isProgram? (.ofString (t.toolName role)) = .error fault := by
        rcases hasked : files.isProgram? (.ofString (t.toolName role)) with other | _
        · rw [hasked] at hlocate
          exact congrArg _ (Except.error.inj hlocate)
        · rw [hasked] at hlocate
          exact nomatch hlocate
      exact ⟨hslash, FileTree.lookAt_of_asked hprogram⟩
    · exact nomatch hlocate
  · exact nomatch h
  · exact nomatch h

/-- A search that fails by a fault could not look at a path that names a tool. -/
theorem Builder.looksAt_of_find {b : Builder} {r : Request} {files : FileTree} {fault : Fault}
    (h : b.locator.find b.toolchain files = .error (.fault fault)) :
    ∃ p, b.LooksAt r p ∧ files.lookAt p = .error fault := by
  cases hlocator : b.locator with
  | fixed tools =>
      rw [hlocator] at h
      exact nomatch h
  | search searchPath =>
      rw [hlocator] at h
      obtain ⟨role, hrole⟩ := Toolchain.locateTools_error h
      obtain ⟨hslash, hlook⟩ := Toolchain.lookAt_of_requireTool hrole
      exact ⟨_, .tool hlocator hslash, hlook⟩

/-! ## What the work is refused -/

/-- A call that comes to nothing by a fault is the next exchange. -/
theorem Host.exchanged_of_fault {host : Host} {c : Call} {u v : World} {fault : Fault}
    (hargv : c.argv ≠ []) (h : (host.run c).run u = (.error (.fault fault), v)) :
    v.exchanges = u.exchanges ++ [host.exchanged c u] ∧
      (host.exchanged c u).reply = .failed fault := by
  have hcalled := host.called c u
  rw [h] at hcalled
  cases hcalled with
  | unnamed hnone => exact absurd hnone hargv
  | failed _ hreply => exact ⟨rfl, hreply⟩

namespace Project

variable {j : Project} {u v : World} {fault : Fault}

/-- The operations of the work on files, refused by a fault, with the world that is
    left. -/
inductive Refused (j : Project) (u : World) (fault : Fault) : World → Prop where
  /-- The scratch directory cannot be made. -/
  | directory {files : FileTree} : u.scratch.directory = none →
      (Disk.makeDirectoryAs (.ofString u.scratchText) u.scratchText).run u.files
        = (.error fault, files) →
      Refused j u fault { u with scratchDirectories := u.scratchDirectories + 1, files }
  /-- A scratch file cannot be written. -/
  | write {f : Path} {text : String} {files : FileTree} : f ∈ u.scratch.files →
      (Disk.writeText f text).run u.files = (.error fault, files) →
      Refused j u fault { u with files }
  /-- The directory of what is to be made cannot be made. -/
  | parents {p : Path} {files : FileTree} : j.Given u p →
      (Disk.makeDirectories p.parent).run u.files = (.error fault, files) →
      Refused j u fault { u with files }
  /-- An output cannot be named after an input. -/
  | name {input : Path} {extension : String} : input ∈ j.request.inputs →
      extension ∈ j.layout.outputExtensions → input.withExtension extension = .error fault →
      Refused j u fault u
  /-- The metadata of a framework cannot be looked for. -/
  | metadata {framework : String} : framework ∈ j.request.frameworks →
      u.files.exists? (j.layout.bridgeSupportPath framework) = .error fault →
      Refused j u fault u
  /-- An output that could not be stripped cannot be removed. -/
  | removal {m v : World} {k : Linker} {p : Path} {c : Call} {result : ToolResult}
      {flags : List String} {tool stage : String} {input arch : Option String} {exit : ToolExit}
      {files : FileTree} : j.request.Output j.layout p → CallsFor .link p c →
      (j.host.run c).run u = (.ok result, m) →
      (j.host.run (k.stripCall p flags)).run m
        = (.error (.problem (.toolFailed tool stage input arch exit)), v) →
      (Disk.removeIfPresent p).run v.files = (.error fault, files) →
      Refused j u fault { v with files }

/-- A step that comes to nothing by a fault was refused the scratch directory, or it is
    a call. -/
theorem Halts.refused_or (h : j.Halts u (.fault fault) v) :
    j.Refused u fault v ∨ ∃ x, v.exchanges = u.exchanges ++ [x] ∧ x.reply = .failed fault := by
  cases h with
  | directory hnone hrun => exact .inl (.directory hnone hrun)
  | call hargv hrun => exact .inr ⟨_, Host.exchanged_of_fault hargv hrun⟩

/-- Nothing else was done, unless architectures are compiled side by side: then the
    others went on. -/
def Trails (j : Project) (u v : World) : Prop :=
  u = v ∨ j.request.isPooled = true ∧ j.Advances u [] v

/-- **A fault that stops the work** is that of an operation on files, or a call came to
    nothing by it. -/
theorem Stops.refused_or (h : j.Stops u (.fault fault) v) :
    (∃ m, j.Refused u fault m ∧ j.Trails m v) ∨
      ∃ before x behind, v.exchanges = u.exchanges ++ (before ++ x :: behind) ∧
        x.reply = .failed fault ∧ (behind = [] ∨ j.request.isPooled = true) := by
  cases h with
  | halts hhalts =>
      rcases hhalts.refused_or with hrefused | ⟨x, hexchanges, hreply⟩
      · exact .inl ⟨v, hrefused, .inl rfl⟩
      · exact .inr ⟨[], x, [], hexchanges, hreply, .inl rfl⟩
  | beside hpooled hhalts hlater =>
      rcases hhalts.refused_or with hrefused | ⟨x, hexchanges, hreply⟩
      · exact .inl ⟨_, hrefused, .inr ⟨hpooled, hlater⟩⟩
      · obtain ⟨behind, hbehind, -⟩ := hlater.exchanges
        refine .inr ⟨[], x, behind, ?_, hreply, .inr hpooled⟩
        rw [hbehind, hexchanges, List.append_assoc]
        rfl
  | write hf hrun => exact .inl ⟨_, .write hf hrun, .inl rfl⟩
  | parents hgiven hrun => exact .inl ⟨_, .parents hgiven hrun, .inl rfl⟩
  | name hinput hextension hname => exact .inl ⟨_, .name hinput hextension hname, .inl rfl⟩
  | metadata hframework hlook => exact .inl ⟨_, .metadata hframework hlook, .inl rfl⟩
  | @strip m _ k p c result flags _ hk hkind houtput hmade hlinks hlink hstrip =>
      -- a strip ends by a fault if its call does, or if the tool has failed and its output
      -- cannot be removed
      rw [Linker.run_strip, hk] at hstrip
      rcases hrun : (j.host.run (k.stripCall p flags)).run m with ⟨(problem | other) | _, n⟩
      · rw [hrun] at hstrip
        cases problem with
        | toolFailed tool stage input arch exit =>
            dsimp only at hstrip
            rw [Build.run_onDisk] at hstrip
            rcases hremove : (Disk.removeIfPresent p).run n.files with ⟨other | _, files⟩
            · rw [hremove] at hstrip
              obtain rfl := Failure.fault.inj (Except.error.inj (congrArg Prod.fst hstrip))
              rw [← show _ = v from congrArg Prod.snd hstrip]
              exact .inl ⟨_, .removal houtput hlinks hlink hrun hremove, .inl rfl⟩
            · rw [hremove] at hstrip
              exact nomatch Except.error.inj (congrArg Prod.fst hstrip)
        | _ => exact nomatch Except.error.inj (congrArg Prod.fst hstrip)
      · rw [hrun] at hstrip
        obtain rfl := Failure.fault.inj (Except.error.inj (congrArg Prod.fst hstrip))
        obtain rfl : n = v := congrArg Prod.snd hstrip
        have hargv : (k.stripCall p flags).argv ≠ [] := by simp [Linker.stripCall]
        obtain ⟨hexchanges, hreply⟩ := Host.exchanged_of_fault hargv hrun
        refine .inr ⟨[j.host.exchanged c u], _, [], ?_, hreply, .inl rfl⟩
        rw [hexchanges, Host.exchanges_of_ok hlink, List.append_assoc]
      · rw [hrun] at hstrip
        exact absurd hstrip ok_ne_error

end Project

/-! ## What ends a build -/

namespace Builder

variable {b : Builder} {r : Request} {w v : World} {tools : ToolPaths} {fault : Fault}
  {answer : Except Failure (List Path)}

/-- **The operations on files** that a build does itself, refused by a fault. -/
inductive Refused (b : Builder) (r : Request) (w : World) (fault : Fault) : Prop where
  /-- A path cannot be looked at before the work. -/
  | look {p : Path} : b.LooksAt r p → w.files.lookAt p = .error fault → Refused b r w fault
  /-- The work was refused something, and left the world to be cleaned up. -/
  | work {done : Finished} {m v c : World} : b.cleaning? r w = some c →
      Project.Advances ⟨b.host, r, r.layout b.toolchain⟩ (b.begun r w) done m →
      Project.Refused ⟨b.host, r, r.layout b.toolchain⟩ m fault v →
      Project.Trails ⟨b.host, r, r.layout b.toolchain⟩ v c → Refused b r w fault
  /-- A scratch file cannot be removed. -/
  | cleaning {c : World} {files : FileTree} : b.cleaning? r w = some c →
      (c.scratch.files.forM Disk.removeIfPresent).run c.files = (.error fault, files) →
      Refused b r w fault

/-- The build was refused an operation on files, or else a call of a tool has come to
    nothing by the fault, and no other call was made behind it unless architectures are
    compiled side by side. -/
def EndedBy (b : Builder) (r : Request) (w : World) (fault : Fault) : Prop :=
  b.Refused r w fault ∨ ∃ before x behind,
    ((b.run r).run w).2.exchanges = w.exchanges ++ (before ++ x :: behind) ∧
      x.reply = .failed fault ∧ (behind = [] ∨ r.isPooled = true)

/-- A fault that stops the work ends the build. -/
theorem Worked.endedBy (h : b.Worked r w tools (.error (.fault fault)) v) :
    b.EndedBy r w fault := by
  have hgoes := Project.goesFrom_buildArtifacts b r (r.layout b.toolchain) tools (b.begun r w)
  unfold Project.GoesFrom at hgoes
  rw [h.work] at hgoes
  obtain ⟨done, m, hadvances, hstops⟩ := hgoes
  rcases hstops.refused_or with ⟨u, hrefused, htrails⟩ | ⟨before, x, behind, hexchanges, hreply⟩
  · exact .inl (.work h.cleaning hadvances hrefused htrails)
  · obtain ⟨made, hmade, -⟩ := hadvances.exchanges
    refine .inr ⟨made ++ before, x, behind, ?_, hreply⟩
    rw [h.exchanges_run, hexchanges, hmade, List.append_assoc, List.append_assoc]
    rfl

/-- **A build that ends by a fault** was refused an operation, or a call came to
    nothing. -/
theorem endedBy_of_fault (h : ((b.run r).run w).1 = .error (.fault fault)) :
    b.EndedBy r w fault := by
  have hran := b.ran r w
  rcases hrun : (b.run r).run w with ⟨outcome, after⟩
  rw [hrun] at h hran
  obtain rfl := h
  cases hran with
  | refused hcheck =>
      obtain ⟨p, hp, hlook⟩ := Request.looksAt_of_check hcheck
      exact .inl (.look (.request hp) hlook)
  | unequipped _ hfind =>
      obtain ⟨p, hp, hlook⟩ := looksAt_of_find hfind
      exact .inl (.look hp hlook)
  | failed files hworked => exact hworked.endedBy
  | @stuck tools answer v _ files hworked =>
      -- the fault is that of the removal, unless the work has stopped by it
      have heq := hworked.run_eq.symm.trans hrun
      have hcleaned := Build.answer_cleanUp (v.noting answer)
      rcases hclean : Build.cleanUp.run (v.noting answer) with ⟨e | _, u⟩
      · rw [hclean] at heq hcleaned
        obtain rfl := Except.error.inj (congrArg Prod.fst heq)
        rcases hremovals : ((v.noting answer).scratch.files.forM Disk.removeIfPresent).run
          (v.noting answer).files with ⟨other | _, files'⟩
        · rw [hremovals] at hcleaned
          obtain rfl := Failure.fault.inj (Except.error.inj hcleaned)
          exact .inl (.cleaning hworked.cleaning hremovals)
        · rw [hremovals] at hcleaned
          exact nomatch hcleaned
      · rw [hclean] at heq
        rcases answer with e | artifacts
        · obtain rfl := Except.error.inj (congrArg Prod.fst heq)
          exact hworked.endedBy
        · exact absurd heq ok_ne_error

end Builder

/-! ## What is noted about a failure -/

namespace Builder

variable {b : Builder} {r : Request} {w v : World} {tools : ToolPaths}
  {answer : Except Failure (List Path)}

end Builder

/-! ## What ends the program -/

namespace CommandLine

/-- What the program builds with. -/
def builder (host : Host) (env : Environment) : Builder where
  host
  toolchain := .ofEnvironment env
  locator := .search ((env.lookup "PATH").getD "")

namespace Arguments

variable {a : Arguments} {host : Host} {env : Environment} {machine : String} {w : World}
  {fault : Fault}

/-- Where a fault comes from that ends the program. -/
inductive EndedBy (a : Arguments) (host : Host) (env : Environment) (machine : String) (w : World)
    (fault : Fault) : Prop where
  /-- The arguments make no request. -/
  | request : a.request machine = .error (.fault fault) → EndedBy a host env machine w fault
  /-- The build ends by it. -/
  | build {r : Request} : a.request machine = .ok r → (builder host env).EndedBy r w fault →
      EndedBy a host env machine w fault
  /-- No file has been named to write the log to. -/
  | logNowhere : a.logFile = some .nothing → fault = .noPath → EndedBy a host env machine w fault
  /-- The log cannot be written. -/
  | log {path : Path} {v : World} : a.logFile = some (.value path) →
      (writeLog path).run ((a.build host env machine).run w).2 = (.error (.fault fault), v) →
      EndedBy a host env machine w fault

/-- What a program builds is what its request is answered with, if it makes one. -/
theorem build_eq (a : Arguments) (host : Host) (env : Environment) (machine : String) (w : World) :
    (a.build host env machine).run w = match a.request machine with
      | .error e => (.error e, w)
      | .ok r => ((builder host env).run r).run w := by
  unfold build
  rw [run_bind, Build.run_ofResult]
  rcases a.request machine with e | r <;> rfl

/-- What is shown of a log, if it is shown. -/
def echo (a : Arguments) (log : Log) : String :=
  if a.verbose then String.join (log.echoed.map (· ++ "\n")) else ""

/-- The end of the program: the log is written if that was asked for, and a fault may
    come of it. -/
def conclude (a : Arguments) (v : World) : Option Fault × World :=
  match a.logFile with
  | none => (none, v)
  | some .nothing => (some .noPath, v)
  | some (.value path) => match (writeLog path).run v with
    | (.error (.fault fault), u) => (some fault, u)
    | (_, u) => (none, u)

/-- **The outcome of a run**, from what the build answered and left behind. -/
theorem run_eq (a : Arguments) (host : Host) (env : Environment) (machine : String) (w : World) :
    (a.run host env machine).run w =
      ({ ending := match (a.conclude ((a.build host env machine).run w).2).1 with
          | some fault => .fault fault
          | none => (endingOf ((a.build host env machine).run w).1).1
         stderr := a.echo ((a.build host env machine).run w).2.log ++
          (endingOf ((a.build host env machine).run w).1).2 ++
          String.join (((a.build host env machine).run w).2.notices.map noticeText) },
        (a.conclude ((a.build host env machine).run w).2).2) := by
  unfold run conclude echo
  rcases a.logFile with _ | path | _
  · rfl
  · rcases hbuild : (a.build host env machine).run w with ⟨answer, v⟩
    rcases hwrite : (writeLog path).run v with ⟨(p | fault) | _, u⟩
    all_goals
      have hbuild' : StateT.run (a.build host env machine).run w = pure (answer, v) := hbuild
      have hwrite' : StateT.run (writeLog path).run v = pure _ := hwrite
      simp only [StateT.run_bind, hbuild', StateT.run_get, hwrite', pure_bind]
      rw [hwrite]
      rfl
  · rfl

/-- The program ends as the build does, unless the log cannot be written. -/
theorem outcome_run (a : Arguments) (host : Host) (env : Environment) (machine : String)
    (w : World) : ∃ echo notices : String, ((a.run host env machine).run w).1 =
      { ending := match a.logFile with
          | none => (endingOf ((a.build host env machine).run w).1).1
          | some .nothing => .fault .noPath
          | some (.value path) =>
            match ((writeLog path).run ((a.build host env machine).run w).2).1 with
            | .error (.fault fault) => .fault fault
            | _ => (endingOf ((a.build host env machine).run w).1).1
        stderr := echo ++ (endingOf ((a.build host env machine).run w).1).2 ++ notices } := by
  refine ⟨a.echo ((a.build host env machine).run w).2.log,
    String.join (((a.build host env machine).run w).2.notices.map noticeText), ?_⟩
  rw [a.run_eq, conclude]
  rcases a.logFile with _ | path | _
  · rfl
  · dsimp only
    rcases (writeLog path).run ((a.build host env machine).run w).2
      with ⟨(p | fault) | _, u⟩ <;> rfl
  · rfl

end Arguments

/-- The ways in which the program ends. -/
inductive Ends (host : Host) (env : Environment) (machine : String) (argv : List String)
    (w : World) (outcome : Outcome) : Prop where
  /-- It was asked for its usage or its version. -/
  | told {stop : Stop} : Arguments.parse argv = .error stop → stop = .help ∨ stop = .version →
      outcome.ending = .status 0 → Ends host env machine argv w outcome
  /-- Its arguments are refused. -/
  | misused {e : UsageError} : Arguments.parse argv = .error (.refused e) →
      outcome.ending = .status 2 → outcome.stderr = e.text → Ends host env machine argv w outcome
  /-- The build answers. -/
  | answered {a : Arguments} {result : BuildResult} : Arguments.parse argv = .ok a →
      ((a.build host env machine).run w).1 = .ok result → outcome.ending = .status 0 →
      Ends host env machine argv w outcome
  /-- The build fails with a problem. -/
  | diagnosed {a : Arguments} {p : Problem} {echo notices : String} :
      Arguments.parse argv = .ok a →
      ((a.build host env machine).run w).1 = .error (.problem p) →
      outcome.ending = .status 1 → outcome.stderr = echo ++ problemText p ++ notices →
      Ends host env machine argv w outcome
  /-- A fault comes through. -/
  | broken {a : Arguments} {fault : Fault} : Arguments.parse argv = .ok a →
      a.EndedBy host env machine w fault → outcome.ending = .fault fault →
      Ends host env machine argv w outcome

variable {host : Host} {env : Environment} {machine : String} {argv : List String} {w : World}

/-- A program that writes its log, or writes none, ends as its build does. -/
theorem ends_of_build {a : Arguments} {outcome : Outcome} {echo notices : String}
    (hparse : Arguments.parse argv = .ok a)
    (hending : outcome.ending = (endingOf ((a.build host env machine).run w).1).1)
    (hstderr : outcome.stderr
      = echo ++ (endingOf ((a.build host env machine).run w).1).2 ++ notices) :
    Ends host env machine argv w outcome := by
  rcases hanswer : ((a.build host env machine).run w).1 with (p | fault) | result
  · rw [hanswer] at hending hstderr
    exact .diagnosed hparse hanswer hending hstderr
  · rw [hanswer] at hending
    refine .broken hparse ?_ hending
    rw [a.build_eq] at hanswer
    rcases hrequest : a.request machine with e | r
    · rw [hrequest] at hanswer
      obtain rfl := Except.error.inj hanswer
      exact .request hrequest
    · rw [hrequest] at hanswer
      exact .build hrequest (Builder.endedBy_of_fault hanswer)
  · rw [hanswer] at hending
    exact .answered hparse hanswer hending

/-- **The program ends** in one of these ways. -/
theorem ends (host : Host) (env : Environment) (machine : String) (argv : List String)
    (w : World) : Ends host env machine argv w ((run host env machine argv).run w).1 := by
  unfold run
  rcases hparse : Arguments.parse argv with (_ | _ | e) | a
  · exact .told hparse (.inl rfl) rfl
  · exact .told hparse (.inr rfl) rfl
  · exact .misused hparse rfl rfl
  · dsimp only
    obtain ⟨echo, notices, houtcome⟩ := a.outcome_run host env machine w
    rw [houtcome]
    rcases hlog : a.logFile with _ | path | _
    · exact ends_of_build hparse rfl rfl
    · dsimp only
      rcases hwrite : (writeLog path).run ((a.build host env machine).run w).2
        with ⟨(p | fault) | _, v⟩
      · exact ends_of_build hparse rfl rfl
      · exact .broken hparse (.log hlog hwrite) rfl
      · exact ends_of_build hparse rfl rfl
    · exact .broken hparse (.logNowhere hlog rfl) rfl

end CommandLine

/-- A source, and the runtime's own programs. -/
def equippedWorld : World where
  files := ⟨["w"], [(["w"], .directory), (["w", "a.rb"], .file [] false),
    (["w", "tmp"], .directory),
    (["w", "r"], .directory), (["w", "r", "bin"], .directory)]
      ++ ["macruby", "llc", "clang", "lipo", "nm", "strip"].map fun tool =>
        (["w", "r", "bin", tool], .file [] true)⟩

end AheadOfTime
