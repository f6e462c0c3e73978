import AheadOfTime.Proofs.Contract
import AheadOfTime.Proofs.Fresh

/-! # The work of a build, step by step

    The work on a request is a sequence of small steps: scratch files are handed
    out, glue is written, directories are made for what is to come, and tools are
    called that write scratch files or none.  In between an output is finished: an
    object by one call that merges, anything else by one call that links and one
    that strips.

    `Project.Step` and `Project.Finish` list these steps, `Project.Advances` puts
    them in a row, and `Project.Stops` lists the ways in which the work can end
    early.  `Project.goesFrom_buildArtifacts` says that there is nothing else, so a
    property of all builds is proved step by step, and once.

    Where architectures are compiled side by side, each of them relies on the others
    to take such steps only (`Project.Alongside`), and takes such steps itself; so
    all of them together do (`Project.goesFrom_compileAll`).  If one of them comes
    to nothing, the others go on for a while. -/

namespace AheadOfTime

variable {α β : Type}

/-- A request that is worked on. -/
structure Project where
  host : Host
  request : Request
  layout : Toolchain

/-- The extensions that scratch files are given. -/
def Toolchain.scratchExtensions (t : Toolchain) : List String :=
  t.objectExtension :: ".cpp" :: Scratch.extensions

/-- The extensions of outputs that are named after inputs. -/
def Toolchain.outputExtensions (t : Toolchain) : List String :=
  [t.objectExtension, t.bundleExtension, ""]

/-- Outputs, each with the exchanges that finished it. -/
abbrev Finished := List (Path × List Exchange)

/-- The path is where the request wants what is made of an input: what it asks for,
    or else the input's path with another extension. -/
def Request.MadeOf (r : Request) (extension : String) (input p : Path) : Prop :=
  r.output = some p ∨ (r.output = none ∧ input.withExtension extension = .ok p)

/-- What is made of a source for an object request is an output of the request. -/
theorem Request.MadeOf.output_object {r : Request} {t : Toolchain} {input p : Path}
    (h : r.MadeOf t.objectExtension input p) (hkind : r.kind = .object)
    (hinput : input ∈ r.inputs) : r.Output t p :=
  h.elim .given fun ⟨hnone, hname⟩ => .object hkind hnone hinput hname

/-- What is made of a source for a bundle request is an output of the request. -/
theorem Request.MadeOf.output_bundle {r : Request} {t : Toolchain} {input p : Path}
    (h : r.MadeOf t.bundleExtension input p) (hkind : r.kind = .bundle)
    (hinput : input ∈ r.inputs) : r.Output t p :=
  h.elim .given fun ⟨hnone, hname⟩ => .bundle hkind hnone hinput hname

/-- What a request is answered with: what is made of every input, in order, or the
    one output that the inputs are linked to. -/
def Request.Artifacts (r : Request) (t : Toolchain) (artifacts : List Path) : Prop :=
  match r.kind with
  | .object => List.Forall₂ (r.MadeOf t.objectExtension) r.inputs artifacts
  | .bundle => List.Forall₂ (r.MadeOf t.bundleExtension) r.inputs artifacts
  | .dylib => ∃ p, artifacts = [p] ∧ r.output = some p
  | .executable => ∃ p, artifacts = [p] ∧ (r.output = some p ∨
      r.output = none ∧ ∃ first, r.inputs.head? = some first ∧ first.withExtension "" = .ok p)

/-! ## Calls that make outputs -/

/-- The exchange is a call of a stage for an output, and a success. -/
structure Exchange.Makes (stage : Stage) (p : Path) (x : Exchange) : Prop where
  stage_eq : x.call.stage = stage
  output : x.call.output? = some (.spelled p.toString)
  succeeded : x.Succeeded

/-- The stage that puts an output of the kind in its place. -/
def OutputKind.finishing : OutputKind → Stage
  | .object => .merge
  | .bundle | .dylib | .executable => .link

/-- How an output of the kind is finished: by a call that merges, or by one that
    links with one that strips behind it. -/
inductive OutputKind.FinishedBy (kind : OutputKind) (p : Path) : List Exchange → Prop where
  | merged {x : Exchange} : kind = .object → x.Makes .merge p → FinishedBy kind p [x]
  | linked {x y : Exchange} : kind ≠ .object → x.Makes .link p → y.Makes .strip p →
      FinishedBy kind p [x, y]

/-- Everything but an object is put in its place by the linker. -/
theorem OutputKind.finishing_of_ne {kind : OutputKind} (h : kind ≠ .object) :
    kind.finishing = .link := by
  cases kind with
  | object => exact absurd rfl h
  | bundle => rfl
  | dylib => rfl
  | executable => rfl

/-- Among the calls that finish an output is the one that puts it in its place. -/
theorem OutputKind.FinishedBy.exists_makes {kind : OutputKind} {p : Path} {xs : List Exchange}
    (h : kind.FinishedBy p xs) : ∃ x ∈ xs, x.Makes kind.finishing p := by
  cases h with
  | merged hkind hmerge =>
      rw [hkind]
      exact ⟨_, List.mem_cons_self, hmerge⟩
  | linked hkind hlink _ =>
      rw [finishing_of_ne hkind]
      exact ⟨_, List.mem_cons_self, hlink⟩

/-- All the calls that finish an output name it. -/
theorem OutputKind.FinishedBy.output {kind : OutputKind} {p : Path} {xs : List Exchange}
    (h : kind.FinishedBy p xs) {x : Exchange} (hx : x ∈ xs) :
    x.call.output? = some (.spelled p.toString) := by
  cases h with
  | merged _ hmerge =>
      rw [List.mem_singleton.mp hx]
      exact hmerge.output
  | linked _ hlink hstrip =>
      rcases List.mem_pair.mp hx with rfl | rfl
      · exact hlink.output
      · exact hstrip.output

/-- A call that answers is the next exchange. -/
theorem Host.exchanges_of_ok {host : Host} {c : Call} {u v : World} {result : ToolResult}
    (h : (host.run c).run u = (.ok result, v)) :
    v.exchanges = u.exchanges ++ [host.exchanged c u] := by
  obtain ⟨program, status, output, rfl, -, -, -⟩ := run_hostRun_eq_ok h
  rfl

/-! ## Steps -/

namespace Project

/-- A path for something to be made: a scratch file that has been handed out, or,
    once there is a scratch directory, an output. -/
def Given (j : Project) (u : World) (p : Path) : Prop :=
  p ∈ u.scratch.files ∨ (u.scratch.directory ≠ none ∧ j.request.Output j.layout p)

/-- The call writes a scratch file, or no file at all. -/
def Prepares (u : World) (c : Call) : Prop :=
  c.output? = none ∨ ∃ f ∈ u.scratch.files, c.output? = some (.spelled f.toString)

/-- A checked call of a stage for an output. -/
structure CallsFor (stage : Stage) (p : Path) (c : Call) : Prop where
  stage_eq : c.stage = stage
  output : c.output? = some (.spelled p.toString)
  checked : c.isChecked = true

/-- The small steps of the work.  A scratch directory may have been asked for in vain,
    and a tool may have failed, if others go on. -/
inductive Step (j : Project) : World → World → Prop where
  | still {u v : World} : World.Alike u v → Step j u v
  | noDirectory {u : World} : Step j u { u with scratchDirectories := u.scratchDirectories + 1 }
  | directory {u : World} {files : FileTree} : u.scratch.directory = none →
      (Disk.makeDirectoryAs (.ofString u.scratchText) u.scratchText).run u.files
        = (.ok (), files) →
      Step j u { u with
        scratchDirectories := u.scratchDirectories + 1
        files
        scratch := { u.scratch with directory := some (.ofString u.scratchText) } }
  | handOut {u : World} {d : Path} (stem : String) {extension : String} :
      u.scratch.directory = some d → extension ∈ j.layout.scratchExtensions →
      Step j u (u.withScratchFile
        (d.child (Scratch.fileName stem (j.host.scratchId (u.scratchIds + 1)) extension)))
  | write {u : World} {f : Path} {text : String} {files : FileTree} : f ∈ u.scratch.files →
      (Disk.writeText f text).run u.files = (.ok (), files) → Step j u { u with files }
  | parents {u : World} {p : Path} {files : FileTree} : j.Given u p →
      (Disk.makeDirectories p.parent).run u.files = (.ok (), files) → Step j u { u with files }
  | call {u : World} {c : Call} (program : String) : Prepares u c →
      Step j u (j.host.asked c program u)

/-- An output is finished by these exchanges. -/
inductive Finish (j : Project) (p : Path) : List Exchange → World → World → Prop where
  | merged {u v : World} {c : Call} {result : ToolResult} : j.request.kind = .object →
      CallsFor .merge p c → (j.host.run c).run u = (.ok result, v) →
      Finish j p [j.host.exchanged c u] u v
  | linked {u m v : World} {c c' : Call} {result result' : ToolResult} :
      j.request.kind ≠ .object → CallsFor .link p c → CallsFor .strip p c' →
      (j.host.run c).run u = (.ok result, m) → (j.host.run c').run m = (.ok result', v) →
      Finish j p [j.host.exchanged c u, j.host.exchanged c' m] u v

/-- The work gets from one world to another and finishes these outputs on the
    way. -/
inductive Advances (j : Project) : World → Finished → World → Prop where
  | refl (u : World) : Advances j u [] u
  | step {u v w : World} {done : Finished} : j.Step u v → Advances j v done w →
      Advances j u done w
  | finish {u v w : World} {p : Path} {xs : List Exchange} {done : Finished} :
      j.request.Output j.layout p → u.scratch.directory ≠ none → j.Finish p xs u v →
      Advances j v done w → Advances j u ((p, xs) :: done) w

/-- The ways in which a step comes to nothing. -/
inductive Halts (j : Project) : World → Failure → World → Prop where
  /-- The build's own rules are against it. -/
  | problem {u v : World} {p : Problem} : World.Alike u v → Halts j u (.problem p) v
  | directory {u : World} {fault : Fault} {files : FileTree} : u.scratch.directory = none →
      (Disk.makeDirectoryAs (.ofString u.scratchText) u.scratchText).run u.files
        = (.error fault, files) →
      Halts j u (.fault fault)
        { u with scratchDirectories := u.scratchDirectories + 1, files }
  | call {u v : World} {c : Call} {e : Failure} : c.argv ≠ [] →
      (j.host.run c).run u = (.error e, v) → Halts j u e v

/-- The ways in which the work ends early. -/
inductive Stops (j : Project) : World → Failure → World → Prop where
  | halts {u v : World} {e : Failure} : j.Halts u e v → Stops j u e v
  /-- Architectures that are compiled beside the one that came to nothing went on. -/
  | beside {u v w : World} {e : Failure} : j.request.isPooled = true → j.Halts u e v →
      j.Advances v [] w → Stops j u e w
  | write {u : World} {f : Path} {text : String} {fault : Fault} {files : FileTree} :
      f ∈ u.scratch.files → (Disk.writeText f text).run u.files = (.error fault, files) →
      Stops j u (.fault fault) { u with files }
  | parents {u : World} {p : Path} {fault : Fault} {files : FileTree} : j.Given u p →
      (Disk.makeDirectories p.parent).run u.files = (.error fault, files) →
      Stops j u (.fault fault) { u with files }
  /-- An output cannot be named after an input. -/
  | name {u : World} {input : Path} {extension : String} {fault : Fault} :
      input ∈ j.request.inputs → extension ∈ j.layout.outputExtensions →
      input.withExtension extension = .error fault →
      Stops j u (.fault fault) u
  /-- The metadata of a framework cannot be looked for. -/
  | metadata {u : World} {framework : String} {fault : Fault} :
      framework ∈ j.request.frameworks →
      u.files.exists? (j.layout.bridgeSupportPath framework) = .error fault →
      Stops j u (.fault fault) u
  /-- An output has been linked, but is not stripped. -/
  | strip {u m v : World} {k : Linker} {p : Path} {c : Call} {result : ToolResult}
      {flags : List String} {e : Failure} : k.host = j.host → j.request.kind ≠ .object →
      j.request.Output j.layout p → u.scratch.directory ≠ none → CallsFor .link p c →
      (j.host.run c).run u = (.ok result, m) → (k.strip p flags).run m = (.error e, v) →
      Stops j u e v

variable {j : Project} {u v w : World}

/-! ## Rows of steps -/

/-- One small step is a row of steps that finishes nothing. -/
theorem Step.advances (h : j.Step u v) : j.Advances u [] v := .step h (.refl v)

/-- Rows of steps join, and so do the outputs they finish. -/
theorem Advances.trans {done more : Finished} (h : j.Advances u done v)
    (h' : j.Advances v more w) : j.Advances u (done ++ more) w := by
  induction h with
  | refl => exact h'
  | step hstep _ ih => exact .step hstep (ih h')
  | finish houtput hmade hfinish _ ih => exact .finish houtput hmade hfinish (ih h')

/-- Only outputs are finished. -/
theorem Advances.output_of_mem {done : Finished} (h : j.Advances u done v)
    {d : Path × List Exchange} (hd : d ∈ done) : j.request.Output j.layout d.1 := by
  induction h with
  | refl => exact nomatch hd
  | step _ _ ih => exact ih hd
  | finish houtput _ _ _ ih =>
      rcases List.mem_cons.mp hd with rfl | hlater
      · exact houtput
      · exact ih hlater

/-- A call leaves the scratch session as it was. -/
theorem scratch_hostRun {host : Host} {c : Call} {answer : Except Failure ToolResult}
    (h : (host.run c).run u = (answer, v)) : v.scratch = u.scratch := by
  have hcalled := host.called c u
  rw [h] at hcalled
  cases hcalled with
  | unnamed | missing | failed | rejected | answered => rfl

/-- The scratch session only grows. -/
structure Keeps (u v : World) : Prop where
  directory : u.scratch.directory ≠ none → v.scratch.directory = u.scratch.directory
  files : u.scratch.files ⊆ v.scratch.files

theorem Keeps.of_eq (h : v.scratch = u.scratch) : Keeps u v :=
  ⟨fun _ => congrArg Scratch.directory h, h ▸ List.Subset.refl _⟩

theorem Keeps.trans (h : Keeps u v) (h' : Keeps v w) : Keeps u w := by
  refine ⟨fun hmade => ?_, List.Subset.trans h.files h'.files⟩
  have heq := h.directory hmade
  rw [h'.directory (heq ▸ hmade), heq]

/-- A small step may open the scratch directory or hand out a file, and takes neither
    back. -/
theorem Step.keeps (h : j.Step u v) : Keeps u v := by
  cases h with
  | still halike => exact .of_eq halike.scratch
  | noDirectory => exact .of_eq rfl
  | directory hnone _ => exact ⟨fun hmade => absurd hnone hmade, List.Subset.refl _⟩
  | handOut stem _ _ => exact ⟨fun _ => rfl, List.subset_append_left _ _⟩
  | write _ _ => exact .of_eq rfl
  | parents _ _ => exact .of_eq rfl
  | call _ _ => exact .of_eq rfl

theorem Finish.keeps {p : Path} {xs : List Exchange} (h : j.Finish p xs u v) : Keeps u v := by
  cases h with
  | merged _ _ hrun => exact .of_eq (scratch_hostRun hrun)
  | linked _ _ _ hlink hstrip =>
      exact .of_eq ((scratch_hostRun hstrip).trans (scratch_hostRun hlink))

/-- So the scratch session only grows through all the work. -/
theorem Advances.keeps {done : Finished} (h : j.Advances u done v) : Keeps u v := by
  induction h with
  | refl u => exact .of_eq rfl
  | step hstep _ ih => exact hstep.keeps.trans ih
  | finish _ _ hfinish _ ih => exact hfinish.keeps.trans ih

theorem Keeps.made (h : Keeps u v) (hmade : u.scratch.directory ≠ none) :
    v.scratch.directory ≠ none := by
  rw [h.directory hmade]
  exact hmade

/-- A path that may be made stays one. -/
theorem Keeps.given (h : Keeps u v) {p : Path} (hp : j.Given u p) : j.Given v p :=
  hp.imp (fun hfile => h.files hfile) fun ⟨hmade, houtput⟩ => ⟨h.made hmade, houtput⟩

/-! ## The exchanges of the work -/

/-- A checked call that answers has succeeded. -/
theorem CallsFor.makes {stage : Stage} {p : Path} {c : Call} (hc : CallsFor stage p c)
    {host : Host} {result : ToolResult} (h : (host.run c).run u = (.ok result, v)) :
    (host.exchanged c u).Makes stage p := by
  obtain ⟨program, status, output, -, hreply, hzero, -⟩ := Host.run_hostRun_eq_ok h
  rw [hzero hc.checked] at hreply
  exact ⟨hc.stage_eq, hc.output, output, hreply⟩

/-- A small step calls at most for a scratch file. -/
theorem Step.exchanges (h : j.Step u v) :
    v.exchanges = u.exchanges ∨ ∃ c, Prepares u c ∧
      v.exchanges = u.exchanges ++ [j.host.exchanged c u] := by
  cases h with
  | still halike => exact .inl halike.exchanges
  | noDirectory => exact .inl rfl
  | directory _ _ => exact .inl rfl
  | handOut _ _ _ => exact .inl rfl
  | write _ _ => exact .inl rfl
  | parents _ _ => exact .inl rfl
  | call _ hprepares => exact .inr ⟨_, hprepares, rfl⟩

/-- The exchanges that finish an output are the next ones. -/
theorem Finish.exchanges {p : Path} {xs : List Exchange} (h : j.Finish p xs u v) :
    v.exchanges = u.exchanges ++ xs ∧ j.request.kind.FinishedBy p xs := by
  cases h with
  | merged hkind hcalls hrun =>
      exact ⟨Host.exchanges_of_ok hrun, .merged hkind (hcalls.makes hrun)⟩
  | linked hkind hlinks hstrips hlink hstrip =>
      refine ⟨?_, .linked hkind (hlinks.makes hlink) (hstrips.makes hstrip)⟩
      rw [Host.exchanges_of_ok hstrip, Host.exchanges_of_ok hlink, List.append_assoc]
      rfl

/-- **What is finished** is finished by calls of the work. -/
theorem Advances.exchanges {done : Finished} (h : j.Advances u done v) :
    ∃ made, v.exchanges = u.exchanges ++ made ∧
      ∀ d ∈ done, j.request.kind.FinishedBy d.1 d.2 ∧ d.2 ⊆ made := by
  induction h with
  | refl u => exact ⟨[], (List.append_nil _).symm, List.forall_mem_nil _⟩
  | step hstep _ ih =>
      obtain ⟨made, hmade, hdone⟩ := ih
      rcases hstep.exchanges with heq | ⟨c, -, heq⟩
      · rw [heq] at hmade
        exact ⟨made, hmade, hdone⟩
      · rw [heq, List.append_assoc] at hmade
        exact ⟨_, hmade, fun d hd => (hdone d hd).imp_right
          fun hsub => List.Subset.trans hsub (List.subset_append_right _ _)⟩
  | finish _ _ hfinish _ ih =>
      obtain ⟨made, hmade, hdone⟩ := ih
      obtain ⟨heq, hfinished⟩ := hfinish.exchanges
      rw [heq, List.append_assoc] at hmade
      refine ⟨_, hmade, List.forall_mem_cons.mpr ⟨⟨hfinished, List.subset_append_left _ _⟩,
        fun d hd => (hdone d hd).imp_right
          fun hsub => List.Subset.trans hsub (List.subset_append_right _ _)⟩⟩

/-! ## Actions that go as the work does -/

/-- An answer is reached by steps of the work, and is what it should be; a failure
    is one of those that end the work early. -/
def Goes (j : Project) (post : α → World → Finished → Prop) (u : World) :
    Except Failure α × World → Prop
  | (.ok a, v) => ∃ done, j.Advances u done v ∧ post a v done
  | (.error e, v) => ∃ done m, j.Advances u done m ∧ j.Stops m e v

/-- From this world, the action goes as the work does. -/
def GoesFrom (j : Project) (u : World) (act : Build α) (post : α → World → Finished → Prop) :
    Prop := j.Goes post u (act.run u)

/-- What is said of the answer may be weakened. -/
theorem Goes.mono {post post' : α → World → Finished → Prop} {answer : Except Failure α × World}
    (h : j.Goes post u answer) (hpost : ∀ a v done, post a v done → post' a v done) :
    j.Goes post' u answer := by
  rcases answer with ⟨e | a, v⟩
  · exact h
  · obtain ⟨done, hadvances, ha⟩ := h
    exact ⟨done, hadvances, hpost a v done ha⟩

theorem GoesFrom.mono {act : Build α} {post post' : α → World → Finished → Prop}
    (h : j.GoesFrom u act post) (hpost : ∀ a v done, post a v done → post' a v done) :
    j.GoesFrom u act post' := Goes.mono h hpost

/-- **One action behind the other** goes as the work does, if both do. -/
theorem GoesFrom.bind {x : Build α} {f : α → Build β} {post : α → World → Finished → Prop}
    {post' : β → World → Finished → Prop} (hx : j.GoesFrom u x post)
    (hf : ∀ a v done, j.Advances u done v → post a v done →
      j.GoesFrom v (f a) fun b w more => post' b w (done ++ more)) :
    j.GoesFrom u (x >>= f) post' := by
  unfold GoesFrom at hx ⊢
  rcases hrun : x.run u with ⟨e | a, v⟩
  · rw [hrun] at hx
    rw [run_bind_error hrun]
    exact hx
  · rw [hrun] at hx
    rw [run_bind_ok hrun]
    obtain ⟨done, hadvances, ha⟩ := hx
    have hsecond := hf a v done hadvances ha
    unfold GoesFrom at hsecond
    rcases hrun' : (f a).run v with ⟨e | b, w⟩
    · rw [hrun'] at hsecond
      obtain ⟨more, m, hmore, hstops⟩ := hsecond
      exact ⟨done ++ more, m, hadvances.trans hmore, hstops⟩
    · rw [hrun'] at hsecond
      obtain ⟨more, hmore, hb⟩ := hsecond
      exact ⟨done ++ more, hadvances.trans hmore, hb⟩

/-- Nothing is finished, and this holds of the answer. -/
abbrev Ready (holds : α → World → Prop) (a : α) (v : World) (done : Finished) : Prop :=
  done = [] ∧ holds a v

/-- Behind an action that finishes nothing. -/
theorem GoesFrom.then {x : Build α} {f : α → Build β} {holds : α → World → Prop}
    {post : β → World → Finished → Prop} (hx : j.GoesFrom u x (Ready holds))
    (hf : ∀ a v, Keeps u v → holds a v → j.GoesFrom v (f a) post) :
    j.GoesFrom u (x >>= f) post := by
  refine hx.bind fun a v done hadvances ⟨hdone, ha⟩ => ?_
  rw [hdone]
  exact hf a v hadvances.keeps ha

/-- An answer that is there already takes no step. -/
theorem goesFrom_pure {a : α} {post : α → World → Finished → Prop} (h : post a u []) :
    j.GoesFrom u (pure a) post := ⟨[], .refl u, h⟩

/-- A still step that fails, if at all, by a problem. -/
theorem goesFrom_of_still {act : Build α} (hstill : act.Still)
    (hproblem : ∀ e, (act.run u).1 = .error e → ∃ p, e = .problem p) :
    j.GoesFrom u act (Ready fun _ _ => True) := by
  have halike := hstill u
  unfold GoesFrom
  rcases hrun : act.run u with ⟨e | a, v⟩
  · rw [hrun] at halike hproblem
    obtain ⟨p, rfl⟩ := hproblem e rfl
    exact ⟨[], u, .refl u, .halts (.problem halike)⟩
  · rw [hrun] at halike
    exact ⟨[], (Step.still halike).advances, rfl, trivial⟩

/-- A complaint ends the work by a problem. -/
theorem goesFrom_complain (p : Problem) {post : α → World → Finished → Prop} :
    j.GoesFrom u (Build.complain p) post :=
  ⟨[], u, .refl u, .halts (.problem (.refl u))⟩

theorem goesFrom_ofChecked (result : Except Problem α) :
    j.GoesFrom u (Build.ofChecked result) (Ready fun a _ => result = .ok a) := by
  unfold GoesFrom
  rw [Build.run_ofChecked]
  cases result with
  | error p => exact ⟨[], u, .refl u, .halts (.problem (.refl u))⟩
  | ok a => exact ⟨[], .refl u, rfl, rfl⟩

/-- An output is named after an input. -/
theorem goesFrom_withExtension {input : Path} {extension : String}
    (hinput : input ∈ j.request.inputs) (hextension : extension ∈ j.layout.outputExtensions) :
    j.GoesFrom u (Build.ofFallible (input.withExtension extension))
      (Ready fun p v => input.withExtension extension = .ok p ∧ v = u) := by
  unfold GoesFrom
  rw [Build.run_ofFallible]
  rcases hname : input.withExtension extension with fault | p
  · exact ⟨[], u, .refl u, .name hinput hextension hname⟩
  · exact ⟨[], .refl u, rfl, rfl, rfl⟩

/-! ## Steps among others -/

/-- Others have taken steps of the work meanwhile, and finished nothing. -/
def Alongside (j : Project) (u v : World) : Prop := j.Advances u [] v

/-- Steps of the others are a relation that one arm may rely on. -/
theorem lasting_alongside (j : Project) : Lasting j.Alongside :=
  ⟨.refl, fun h h' => Advances.trans h h'⟩

/-- From this world, the action takes steps of the work, and comes to nothing only as
    a step does. -/
def StepsFrom (j : Project) (u : World) (act : Build α) (holds : α → World → Prop) : Prop :=
  j.Alongside u (act.run u).2 ∧ Fares holds (j.Halts u) (act.run u).1 (act.run u).2

/-- Where steps are taken among others, they are taken alone too. -/
theorem StepsFrom.goesFrom {act : Build α} {holds : α → World → Prop}
    (h : j.StepsFrom u act holds) : j.GoesFrom u act (Ready holds) := by
  obtain ⟨hadvances, hfares⟩ := h
  unfold GoesFrom
  rcases hrun : act.run u with ⟨e | a, v⟩
  · rw [hrun] at hfares
    exact ⟨[], u, .refl u, .halts hfares⟩
  · rw [hrun] at hadvances hfares
    exact ⟨[], hadvances, rfl, hfares⟩

/-- Since the world `w`, something has come to nothing, and others went on. -/
def HaltedSince (j : Project) (w : World) (e : Failure) (v : World) : Prop :=
  ∃ u u', j.Alongside w u ∧ j.Halts u e u' ∧ j.Alongside u' v

/-- A step that is taken among others. -/
theorem StepsFrom.sound {act : Build α} {holds : α → World → Prop}
    (hsteps : ∀ u, j.StepsFrom u act holds)
    (hlasts : ∀ a u v, j.Alongside u v → holds a u → holds a v) (hwu : j.Alongside w u) :
    (Strand.one act).Sound j.Alongside holds (j.HaltedSince w) u := by
  refine .one fun u₁ huu₁ answer u₂ hrun => ?_
  obtain ⟨hadvances, hfares⟩ := hsteps u₁
  rw [hrun] at hadvances hfares
  refine ⟨hadvances, fun v hu₂v => ?_⟩
  cases answer with
  | ok a => exact hlasts a u₂ v hu₂v hfares
  | error e => exact ⟨u₁, u₂, (lasting_alongside j).trans hwu huu₁, hfares, hu₂v⟩

/-! ## Scratch files -/

/-- The scratch directory is there, or is asked for now. -/
theorem stepsFrom_scratchDirectory :
    j.StepsFrom u Build.scratchDirectory fun d v => v.scratch.directory = some d := by
  unfold StepsFrom
  have hgives := Build.givesDirectory u
  generalize Build.scratchDirectory.run u = outcome at hgives ⊢
  cases hgives with
  | standing hdirectory => exact ⟨.refl u, hdirectory⟩
  | made hnone hrun => exact ⟨(Step.directory hnone hrun).advances, rfl⟩
  | refused hnone hrun =>
      refine ⟨?_, .directory hnone hrun⟩
      rw [Disk.call_error hrun]
      exact Step.noDirectory.advances

/-- A file is handed out under one of the extensions the work may use. -/
theorem stepsFrom_allocate (stem : String) {extension : String}
    (hextension : extension ∈ j.layout.scratchExtensions) :
    j.StepsFrom u (Build.allocate j.host stem extension)
      fun f v => f ∈ v.scratch.files ∧ v.scratch.directory ≠ none := by
  have hdirectory : j.StepsFrom u Build.scratchDirectory _ := stepsFrom_scratchDirectory
  unfold StepsFrom at hdirectory ⊢
  have hhands := Build.handsOut j.host stem extension u
  generalize (Build.allocate j.host stem extension).run u = outcome at hhands ⊢
  cases hhands with
  | closed => exact ⟨.refl u, .problem (.refl u)⟩
  | refused _ hrun =>
      rw [hrun] at hdirectory
      exact hdirectory
  | @given d path v _ hrun hpath =>
      rw [hrun] at hdirectory
      obtain ⟨hadvances, hmade⟩ := hdirectory
      subst hpath
      refine ⟨hadvances.trans (Step.handOut stem hmade hextension).advances,
        List.mem_append_right _ List.mem_cons_self, ?_⟩
      show v.scratch.directory ≠ none
      rw [show v.scratch.directory = some d from hmade]
      exact nofun

/-- A file that is handed out is a scratch file from then on. -/
theorem goesFrom_allocate (stem : String) {extension : String}
    (hextension : extension ∈ j.layout.scratchExtensions) :
    j.GoesFrom u (Build.allocate j.host stem extension)
      (Ready fun f v => f ∈ v.scratch.files ∧ v.scratch.directory ≠ none) :=
  (stepsFrom_allocate stem hextension).goesFrom

/-- Only scratch files are written. -/
theorem goesFrom_writeText {f : Path} (hf : f ∈ u.scratch.files) (text : String) :
    j.GoesFrom u (Build.onDisk (Disk.writeText f text)) (Ready fun _ _ => True) := by
  unfold GoesFrom
  rw [Build.run_onDisk]
  rcases hrun : (Disk.writeText f text).run u.files with ⟨fault | _, files⟩
  · exact ⟨[], u, .refl u, .write hf hrun⟩
  · exact ⟨[], (Step.write hf hrun).advances, rfl, trivial⟩

/-- Directories are made only for what is to come. -/
theorem goesFrom_makeDirectories {p : Path} (hp : j.Given u p) :
    j.GoesFrom u (Build.onDisk (Disk.makeDirectories p.parent)) (Ready fun _ _ => True) := by
  unfold GoesFrom
  rw [Build.run_onDisk]
  rcases hrun : (Disk.makeDirectories p.parent).run u.files with ⟨fault | _, files⟩
  · exact ⟨[], u, .refl u, .parents hp hrun⟩
  · exact ⟨[], (Step.parents hp hrun).advances, rfl, trivial⟩

/-- A call that names a program takes a step and leaves the rest as it is. -/
theorem stepsFrom_hostRun {c : Call} (hc : Prepares u c) (hargv : c.argv ≠ []) :
    j.StepsFrom u (j.host.run c) fun _ _ => True := by
  obtain ⟨program, halike⟩ := j.host.alike_hostRun hargv u
  refine ⟨(Step.call program hc).advances.trans (Step.still halike).advances, ?_⟩
  rcases hrun : (j.host.run c).run u with ⟨e | result, v⟩
  · exact .call hargv hrun
  · trivial

/-- A call that writes no output is a step of the work. -/
theorem goesFrom_hostRun {c : Call} (hc : Prepares u c) (hargv : c.argv ≠ []) :
    j.GoesFrom u (j.host.run c) (Ready fun _ _ => True) :=
  (stepsFrom_hostRun hc hargv).goesFrom

/-- A call for a scratch file. -/
theorem goesFrom_prepare {f : Path} {c : Call} (hf : f ∈ u.scratch.files)
    (hc : c.output? = some (.spelled f.toString)) :
    j.GoesFrom u (j.host.run c) (Ready fun _ _ => True) :=
  goesFrom_hostRun (.inr ⟨f, hf, hc⟩) (Call.argv_ne_nil hc)

/-- A call whose reply comes to nothing has come to nothing when it was made, whatever
    got between the two. -/
theorem Halts.of_conclude {c : Call} {program : String} {arguments : List String} {e : Failure}
    (hargv : c.argv = program :: arguments)
    (h : (c.conclude (j.host.exchanged c u).reply).run v = (.error e, w)) :
    ∃ u', World.Alike (j.host.asked c program u) u' ∧ j.Halts u e u' := by
  have hrun : (j.host.run c).run u = (c.conclude (j.host.exchanged c u).reply).run
      (j.host.asked c program u) := run_bind_ok (j.host.run_call c hargv u)
  have hanswer : ((j.host.run c).run u).1 = .error e := by
    rw [hrun, c.answer_conclude _ v, h]
  refine ⟨((j.host.run c).run u).2, ?_, .call (hargv ▸ List.cons_ne_nil _ _) (Prod.ext hanswer rfl)⟩
  rw [hrun]
  exact c.still_conclude _ _

/-- A call for a scratch file that is made among others. -/
theorem sound_hostStrand {f : Path} {c : Call} (hwu : j.Alongside w u) (hf : f ∈ u.scratch.files)
    (hc : c.output? = some (.spelled f.toString)) :
    (j.host.strand c).Sound j.Alongside (fun _ _ => True) (j.HaltedSince w) u := by
  have hlasting := lasting_alongside j
  obtain ⟨program, arguments, hargv⟩ := List.exists_cons_of_ne_nil (Call.argv_ne_nil hc)
  intro u₁ huu₁ answer m hcall
  obtain ⟨rfl, rfl⟩ := Prod.mk.inj (hcall.symm.trans (j.host.run_call c hargv u₁))
  have hstep : j.Alongside u₁ (j.host.asked c program u₁) :=
    (Step.call program (.inr ⟨f, huu₁.keeps.files hf, hc⟩)).advances
  refine ⟨hstep, Strand.Sound.one fun u₂ hlater answer u₃ hconclude => ?_⟩
  have hstill : j.Alongside u₂ u₃ := (Step.still ((c.still_conclude _).alike hconclude)).advances
  refine ⟨hstill, fun v hv => ?_⟩
  cases answer with
  | ok result => trivial
  | error e =>
      obtain ⟨u', halike, hhalts⟩ := Halts.of_conclude hargv hconclude
      exact ⟨u₁, u', hlasting.trans hwu huu₁, hhalts,
        hlasting.trans (Step.still halike.symm).advances
          (hlasting.trans hlater (hlasting.trans hstill hv))⟩

/-! ## Compiling -/

theorem mem_scratchExtensions {extension : String} (h : extension ∈ Scratch.extensions) :
    extension ∈ j.layout.scratchExtensions :=
  List.mem_cons_of_mem _ (List.mem_cons_of_mem _ h)

/-- A call for an object that is asked for finishes it. -/
theorem goesFrom_merging {p : Path} {c : Call} (hkind : j.request.kind = .object)
    (houtput : j.request.Output j.layout p) (hmade : u.scratch.directory ≠ none)
    (hc : CallsFor .merge p c) :
    j.GoesFrom u (j.host.run c) fun _ _ done => ∃ xs, done = [(p, xs)] := by
  unfold GoesFrom
  rcases hrun : (j.host.run c).run u with ⟨e | result, v⟩
  · exact ⟨[], u, .refl u, .halts (.call (Call.argv_ne_nil hc.output) hrun)⟩
  · exact ⟨_, .finish houtput hmade (.merged hkind hc hrun) (.refl v), _, rfl⟩

/-- A draw of an entry point touches no file. -/
theorem goesFrom_generate : j.GoesFrom u EntryPoint.generate (Ready fun _ _ => True) := by
  refine goesFrom_of_still EntryPoint.still_generate fun e he => ?_
  rw [EntryPoint.run_generate] at he
  rcases hsymbol : EntryPoint.ofSymbol u.draws.next.1 with p | entryPoint
  · rw [hsymbol] at he
    exact ⟨p, (Except.error.inj he).symm⟩
  · rw [hsymbol] at he
    exact nomatch he

/-- The compiler works for the project. -/
structure Serves (c : Compiler) (j : Project) : Prop where
  host : c.host = j.host
  objectExtension : c.objectExtension = j.layout.objectExtension
  isPooled : c.isPooled = j.request.isPooled

section

variable {c : Compiler} (hc : Serves c j)

include hc

/-- **An architecture** that is compiled for itself takes steps of the work. -/
theorem goesFrom_compileFor (source : Path) (e : EntryPoint) (arch : Arch) :
    j.GoesFrom u (c.compileFor source e arch).run
      (Ready fun _ v => v.scratch.directory ≠ none) := by
  rw [c.run_compileFor, hc.host]
  refine (goesFrom_allocate _ (mem_scratchExtensions (by decide))).then
    fun bitcode v₁ _ ⟨hbitcode, _⟩ => ?_
  refine (goesFrom_allocate _ (mem_scratchExtensions (by decide))).then
    fun assembly v₂ h₂ ⟨hassembly, _⟩ => ?_
  refine (goesFrom_allocate _ (mem_scratchExtensions (by decide))).then
    fun object v₃ h₃ ⟨hobject, hmade⟩ => ?_
  have hbitcode₃ := h₃.files (h₂.files hbitcode)
  refine (goesFrom_prepare hbitcode₃ (c.output?_frontendCall ..)).then
    fun _ v₄ h₄ _ => ?_
  have hassembly₄ := h₄.files (h₃.files hassembly)
  refine (goesFrom_prepare hassembly₄ (c.output?_backendCall ..)).then
    fun _ v₅ h₅ _ => ?_
  have hobject₅ := h₅.files (h₄.files hobject)
  refine (goesFrom_prepare hobject₅ (c.output?_assembleCall ..)).then
    fun _ v₆ h₆ _ => ?_
  exact goesFrom_pure ⟨rfl, h₆.made (h₅.made (h₄.made hmade))⟩

/-- **An architecture** that is compiled beside others takes steps of the work, if the
    others do. -/
theorem sound_compileFor (source : Path) (e : EntryPoint) (arch : Arch) :
    (c.compileFor source e arch).Sound j.Alongside (fun _ v => v.scratch.directory ≠ none)
      (j.HaltedSince w) w := by
  have hlasting := lasting_alongside j
  -- of what the three calls need, only the files and the directory have to last
  have hallocate : ∀ {u : World}, j.Alongside w u → ∀ extension ∈ Scratch.extensions,
      (Strand.one (Build.allocate c.host (source.stem ++ "-" ++ arch.name) extension)).Sound
        j.Alongside (fun f v => f ∈ v.scratch.files ∧ v.scratch.directory ≠ none)
        (j.HaltedSince w) u := by
    intro u hwu extension hextension
    rw [hc.host]
    exact StepsFrom.sound (fun _ => stepsFrom_allocate _ (mem_scratchExtensions hextension))
      (fun f _ _ hlater hf => ⟨hlater.keeps.files hf.1, hlater.keeps.made hf.2⟩) hwu
  have hstrand : ∀ {u : World} {f : Path} {call : Call}, j.Alongside w u → f ∈ u.scratch.files →
      call.output? = some (.spelled f.toString) → (c.host.strand call).Sound j.Alongside
        (fun _ _ => True) (j.HaltedSince w) u := by
    intro u f call hwu hf hcall
    rw [hc.host]
    exact sound_hostStrand hwu hf hcall
  refine (hallocate (hlasting.refl w) ".bc" (by decide)).bind hlasting
    fun bitcode u₁ h₁ ⟨hbitcode, _⟩ => ?_
  refine (hallocate h₁ ".s" (by decide)).bind hlasting fun assembly u₂ h₂ ⟨hassembly, _⟩ => ?_
  have hwu₂ := hlasting.trans h₁ h₂
  refine (hallocate hwu₂ ".o" (by decide)).bind hlasting fun object u₃ h₃ ⟨hobject, hmade⟩ => ?_
  have hwu₃ := hlasting.trans hwu₂ h₃
  have hbitcode₃ := h₃.keeps.files (h₂.keeps.files hbitcode)
  refine (hstrand hwu₃ hbitcode₃ (c.output?_frontendCall ..)).bind hlasting fun _ u₄ h₄ _ => ?_
  have hwu₄ := hlasting.trans hwu₃ h₄
  have hassembly₄ := h₄.keeps.files (h₃.keeps.files hassembly)
  refine (hstrand hwu₄ hassembly₄ (c.output?_backendCall ..)).bind hlasting fun _ u₅ h₅ _ => ?_
  have hobject₅ := h₅.keeps.files (h₄.keeps.files hobject)
  refine (hstrand (hlasting.trans hwu₄ h₅) hobject₅ (c.output?_assembleCall ..)).bind hlasting
    fun _ u₆ h₆ _ => ?_
  -- whatever the others do behind the last call, the directory stays
  exact fun v h => h.keeps.made (h₆.keeps.made (h₅.keeps.made (h₄.keeps.made hmade)))

/-- **The architectures of a source**, one after the other or side by side, take steps
    of the work. -/
theorem goesFrom_compileAll (source : Path) (e : EntryPoint) :
    j.GoesFrom u (c.compileAll source e)
      (Ready fun objects v => objects ≠ [] → v.scratch.directory ≠ none) := by
  cases hpooled : c.isPooled with
  | false =>
      -- in turn, each architecture is work of its own
      rw [c.compileAll_of_not_pooled hpooled]
      generalize c.archs = archs
      induction archs generalizing u with
      | nil => exact goesFrom_pure ⟨rfl, fun hne => absurd rfl hne⟩
      | cons arch later ih =>
          refine (goesFrom_compileFor hc source e arch).then fun object v _ hmade => ?_
          exact ih.then fun objects v' h' _ => goesFrom_pure ⟨rfl, fun _ => h'.made hmade⟩
  | true =>
      unfold GoesFrom
      rcases hrun : (c.compileAll source e).run u with ⟨answer, v⟩
      obtain ⟨portions, whole, hworked⟩ := Compiler.worked_compileAll hrun
      obtain ⟨pools, hhired⟩ := c.hired_frame u
      have hbegun : j.Alongside u (c.hired u) := by
        have halike : World.Alike u { u with pools } := ⟨rfl, rfl, rfl, rfl, rfl⟩
        rw [hhired]
        exact (Step.still halike).advances
      -- side by side, each relies on the others, and all of them keep to it
      obtain ⟨hadvances, hfares⟩ := hworked.sound (lasting_alongside j)
        fun arch _ => sound_compileFor hc source e arch
      cases answer with
      | ok objects =>
          refine ⟨[], hbegun.trans hadvances, rfl, fun hne => ?_⟩
          obtain ⟨object, hobject⟩ := List.exists_mem_of_ne_nil _ hne
          have hin : some (.ok object) ∈ portions.map Portion.outcome := by
            rw [hworked.decided.eq_of_ok]
            exact List.mem_map_of_mem hobject
          obtain ⟨p, hp, houtcome⟩ := List.mem_map.mp hin
          exact hfares p hp _ houtcome
      | error f =>
          -- the failure is that of one architecture, behind which the others may have gone on
          obtain ⟨p, hp, houtcome⟩ := List.mem_map.mp hworked.decided.mem_of_error
          obtain ⟨m, m', hm, hhalts, hlater⟩ := hfares p hp _ houtcome
          exact ⟨[], m, hbegun.trans hm, .beside (hc.isPooled ▸ hpooled) hhalts hlater⟩

/-- A compilation goes as the merge at its end does. -/
theorem goesFrom_compileTo (source destination : Path) (e : EntryPoint)
    (finishes : Finished → Prop)
    (hmerge : ∀ v objects, Keeps u v → objects ≠ [] → v.scratch.directory ≠ none →
      j.GoesFrom v (do
        Build.onDisk (Disk.makeDirectories destination.parent)
        j.host.run (Host.mergeCall c.tools.lipo objects destination (some source.toString)))
        fun _ _ done => finishes done) :
    j.GoesFrom u (do
      let objects ← c.compileAll source e
      let _ ← c.host.mergeObjects c.tools.lipo objects destination (some source.toString)
      return (⟨source, destination, e⟩ : CompiledUnit))
      fun unit _ done => unit.path = destination ∧ finishes done := by
  refine (goesFrom_compileAll hc source e).then fun objects v₂ h₂ hmade => ?_
  unfold Host.mergeObjects
  -- without objects there is a complaint in place of the merge
  by_cases hnone : objects = []
  · rw [if_pos hnone]
    simp only [bind_assoc]
    exact (goesFrom_complain (α := PUnit) _).bind fun _ _ _ _ (hfalse : False) => hfalse.elim
  · rw [if_neg hnone, hc.host]
    have hmerged := hmerge v₂ objects h₂ hnone (hmade hnone)
    have hfinished : j.GoesFrom v₂ (do
        let _ ← (do
          Build.onDisk (Disk.makeDirectories destination.parent)
          j.host.run (Host.mergeCall c.tools.lipo objects destination (some source.toString)))
        return (⟨source, destination, e⟩ : CompiledUnit))
        fun unit _ done => unit.path = destination ∧ finishes done := by
      refine hmerged.bind fun _ _ done _ hdone => goesFrom_pure ⟨rfl, ?_⟩
      rw [List.append_nil]
      exact hdone
    simp only [bind_assoc, pure_bind] at hfinished ⊢
    exact hfinished

/-- An object that is linked is compiled to a scratch file. -/
theorem goesFrom_compile_scratch (source : Path) {f : Path} (hf : f ∈ u.scratch.files) :
    j.GoesFrom u (c.compile source (some f)) (Ready fun unit _ => unit.path = f) := by
  unfold Compiler.compile
  refine goesFrom_generate.then fun e v hkeeps _ => ?_
  have hcompiled := goesFrom_compileTo (u := v) hc source f e (· = [])
    fun v' objects hkeeps' _ _ => by
      have hf' := hkeeps'.files (hkeeps.files hf)
      refine (goesFrom_makeDirectories (.inl hf')).then fun _ v'' hkeeps'' _ => ?_
      exact (goesFrom_prepare (hkeeps''.files hf') (Host.output?_mergeCall ..)).mono
        fun _ _ done hdone => hdone.1
  exact hcompiled.mono fun unit _ done ⟨hpath, hdone⟩ => ⟨hdone, hpath⟩

/-- An object that is asked for is finished by its compilation. -/
theorem goesFrom_compile_output (hkind : j.request.kind = .object) {source : Path}
    (hsource : source ∈ j.request.inputs) :
    j.GoesFrom u (c.compile source j.request.output) fun unit _ done =>
      (∃ xs, done = [(unit.path, xs)]) ∧
        j.request.MadeOf j.layout.objectExtension source unit.path := by
  -- the place of the object is settled before anything is compiled, in one of two ways
  have hrest : ∀ e v p, j.request.MadeOf j.layout.objectExtension source p → j.GoesFrom v (do
      let objects ← c.compileAll source e
      let _ ← c.host.mergeObjects c.tools.lipo objects p (some source.toString)
      return (⟨source, p, e⟩ : CompiledUnit)) fun unit _ done =>
        (∃ xs, done = [(unit.path, xs)]) ∧
          j.request.MadeOf j.layout.objectExtension source unit.path := by
    intro e v p hp
    have houtput := hp.output_object hkind hsource
    have hcompiled := goesFrom_compileTo (u := v) hc source p e
      (fun done => ∃ xs, done = [(p, xs)]) fun v' objects _ _ hmade => by
        refine (goesFrom_makeDirectories (.inr ⟨hmade, houtput⟩)).then fun _ v'' h'' _ => ?_
        exact goesFrom_merging hkind houtput (h''.made hmade)
          ⟨rfl, Host.output?_mergeCall .., rfl⟩
    refine hcompiled.mono fun unit _ done ⟨hpath, hdone⟩ => ?_
    rw [hpath]
    exact ⟨hdone, hp⟩
  unfold Compiler.compile
  refine goesFrom_generate.then fun e v hkeeps _ => ?_
  rcases hgiven : j.request.output with _ | p
  · unfold Compiler.defaultOutput
    rw [hc.objectExtension]
    refine (goesFrom_withExtension hsource
      (by simp [Toolchain.outputExtensions])).then fun p v' _ ⟨hname, _⟩ => ?_
    exact hrest e v' p (.inr ⟨hgiven, hname⟩)
  · exact hrest e v p (.inl hgiven)

end

/-! ## Linking -/

section

variable {k : Linker} (hk : k.host = j.host)

include hk

/-- The glue is written to a scratch file and compiled to another one. -/
theorem goesFrom_compileGlue (text name : String) :
    j.GoesFrom u (k.compileGlue text name) (Ready fun _ v => v.scratch.directory ≠ none) := by
  unfold Linker.compileGlue
  rw [hk]
  refine (goesFrom_allocate _ (List.mem_cons_of_mem _ List.mem_cons_self)).then
    fun source v₁ _ ⟨hsource, _⟩ => ?_
  refine (goesFrom_writeText hsource text).then fun _ v₂ _ _ => ?_
  refine (goesFrom_allocate _ (mem_scratchExtensions (by decide))).then
    fun object v₃ _ ⟨hobject, hmade⟩ => ?_
  refine (goesFrom_prepare hobject (k.output?_glueCall ..)).then
    fun _ v₄ h₄ _ => ?_
  exact goesFrom_pure ⟨rfl, h₄.made hmade⟩

/-- **An output is finished** when it is linked and stripped. -/
theorem goesFrom_linkAndStrip {p : Path} (hkind : j.request.kind ≠ .object)
    (houtput : j.request.Output j.layout p) (hmade : u.scratch.directory ≠ none)
    (objects : List Path) (modeFlags libraries extraFlags stripFlags : List String) :
    j.GoesFrom u (do
      k.link p objects modeFlags libraries extraFlags
      k.strip p stripFlags) fun a _ done => a = p ∧ ∃ xs, done = [(p, xs)] := by
  unfold Linker.link
  rw [hk]
  simp only [bind_assoc, pure_bind]
  refine (goesFrom_makeDirectories (.inr ⟨hmade, houtput⟩)).then fun _ v hkeeps _ => ?_
  have hmade' := hkeeps.made hmade
  have hlinks : CallsFor .link p (k.linkCall p objects modeFlags libraries extraFlags) :=
    ⟨rfl, k.output?_linkCall .., rfl⟩
  unfold GoesFrom
  rcases hlink : (j.host.run (k.linkCall p objects modeFlags libraries extraFlags)).run v
    with ⟨e | result, m⟩
  · rw [run_bind_error hlink]
    exact ⟨[], v, .refl v, .halts (.call (Call.argv_ne_nil hlinks.output) hlink)⟩
  · rw [run_bind_ok hlink]
    rcases hstrip : (k.strip p stripFlags).run m with ⟨e | artifact, w⟩
    · -- what was linked is there, so the failure is one of its own kind
      exact ⟨[], v, .refl v, .strip hk hkind houtput hmade' hlinks hlink hstrip⟩
    · obtain ⟨rfl, result', hrun⟩ := Linker.run_strip_eq_ok hstrip
      rw [hk] at hrun
      have hstrips : CallsFor .strip artifact (k.stripCall artifact stripFlags) :=
        ⟨rfl, k.output?_stripCall .., rfl⟩
      exact ⟨_, .finish houtput hmade' (.linked hkind hlinks hstrips hlink hrun) (.refl w), rfl,
        _, rfl⟩

/-- **A linked output** is finished by its link and its strip, behind the glue. -/
theorem goesFrom_finish {p : Path} (hkind : j.request.kind ≠ .object)
    (houtput : j.request.Output j.layout p) (text name : String) (objects : Path → List Path)
    (modeFlags libraries extraFlags stripFlags : List String) :
    j.GoesFrom u (do
      let glueObject ← k.compileGlue text name
      k.link p (objects glueObject) modeFlags libraries extraFlags
      k.strip p stripFlags) fun a _ done => a = p ∧ ∃ xs, done = [(p, xs)] :=
  (goesFrom_compileGlue hk text name).then fun glueObject _ _ hmade =>
    goesFrom_linkAndStrip hk hkind houtput hmade (objects glueObject) modeFlags libraries
      extraFlags stripFlags

end

/-! ## Before the sources -/

/-- A scan for the entry point calls for no file. -/
theorem goesFrom_scanEntryPoint (nm object : Path) :
    j.GoesFrom u (j.host.scanEntryPoint nm object) (Ready fun _ _ => True) := by
  unfold Host.scanEntryPoint
  refine (goesFrom_hostRun (.inl rfl) (List.cons_ne_nil _ _)).then fun result v _ _ => ?_
  refine goesFrom_of_still (SymbolListing.still_entryPoint? _ _) fun e he => ?_
  have hproblem : ∀ symbol, ((EntryPoint.ofSymbol symbol).map some).mapError Failure.problem
      = .error e → ∃ p, e = .problem p := by
    intro symbol hsymbol
    cases hof : EntryPoint.ofSymbol symbol with
    | error p =>
        rw [hof] at hsymbol
        exact ⟨p, (Except.error.inj hsymbol).symm⟩
    | ok entryPoint =>
        rw [hof] at hsymbol
        exact nomatch hsymbol
  rw [SymbolListing.run_entryPoint?] at he
  split at he
  · exact nomatch he
  · exact hproblem _ he
  · exact hproblem _ he

/-- The entry point of a prebuilt object is settled without a step. -/
theorem goesFrom_settleObject (object : Path) (e : Option EntryPoint) :
    j.GoesFrom u (Builder.settleObject j.request object e) (Ready fun _ _ => True) := by
  refine goesFrom_of_still (Builder.still_settleObject j.request object e) fun failure he => ?_
  cases e with
  | some e => exact nomatch he
  | none =>
      rw [Builder.settleObject_none] at he
      split at he
      · exact ⟨_, (Except.error.inj he).symm⟩
      · exact nomatch he

/-- Of the frameworks, only those of the request are looked for. -/
theorem goesFrom_bridgingFlags {frameworks : List String}
    (h : frameworks ⊆ j.request.frameworks) :
    j.GoesFrom u (j.layout.bridgingFlags frameworks) (Ready fun _ _ => True) := by
  induction frameworks generalizing u with
  | nil => exact goesFrom_pure ⟨rfl, trivial⟩
  | cons framework later ih =>
      have hlater : ∀ v, j.GoesFrom v (j.layout.bridgingFlags later) (Ready fun _ _ => True) :=
        fun v => ih fun other hin => h (List.mem_cons_of_mem _ hin)
      unfold Toolchain.bridgingFlags GoesFrom
      rw [run_bind_ok (run_get u), run_bind, Build.run_ofFallible]
      rcases hthere : u.files.exists? (j.layout.bridgeSupportPath framework) with fault | there
      · exact ⟨[], u, .refl u, .metadata (h List.mem_cons_self) hthere⟩
      · cases there with
        | true =>
            exact (hlater u).then fun _ _ _ _ => goesFrom_pure ⟨rfl, trivial⟩
        | false =>
            have hwarned : j.GoesFrom u (Build.warn (.noBridgingMetadata framework))
                (Ready fun _ _ => True) :=
              goesFrom_of_still (Build.still_warn _) fun _ he => nomatch he
            exact hwarned.then fun _ v _ _ => hlater v

section

variable {b : Builder} (hb : b.host = j.host)

include hb

/-- A scan of the prebuilt inputs finishes nothing. -/
theorem goesFrom_scanPrebuilt (tools : ToolPaths) (inputs : List Path) (found : Prebuilt) :
    j.GoesFrom u (b.scanPrebuilt j.request j.layout tools inputs found)
      (Ready fun _ _ => True) := by
  induction inputs generalizing u found with
  | nil => exact goesFrom_pure ⟨rfl, trivial⟩
  | cons input later ih =>
      rw [Builder.scanPrebuilt_cons]
      split
      · exact ih found
      · rw [hb]
        refine (goesFrom_scanEntryPoint tools.nm input).then fun e v _ _ => ?_
        exact (goesFrom_settleObject input e).then fun _ v' _ _ => ih _

/-- Nor does what is decided before the first source is compiled. -/
theorem goesFrom_readyMade (tools : ToolPaths) :
    j.GoesFrom u (b.readyMade j.request j.layout tools) (Ready fun _ _ => True) := by
  unfold Builder.readyMade
  split
  · exact goesFrom_pure ⟨rfl, trivial⟩
  · exact goesFrom_scanPrebuilt hb tools _ []

theorem goesFrom_exceptionFlags (tools : ToolPaths) :
    j.GoesFrom u (b.exceptionFlags j.request j.layout tools) (Ready fun _ _ => True) := by
  unfold Builder.exceptionFlags
  split
  · unfold Host.probeExceptionFlags
    rw [hb]
    exact (goesFrom_hostRun (.inl rfl) (List.cons_ne_nil _ _)).then
      fun _ _ _ _ => goesFrom_pure ⟨rfl, trivial⟩
  · exact goesFrom_pure ⟨rfl, trivial⟩

end

/-! ## Whole builds -/

/-- A source among the inputs that are linked becomes a scratch file. -/
theorem goesFrom_linkInputs {b : Builder} {c : Compiler} (hb : b.host = j.host)
    (hc : Serves c j) (prebuilt : Prebuilt) (inputs : List Path) :
    j.GoesFrom u (b.linkInputs j.layout c prebuilt inputs) (Ready fun _ _ => True) := by
  induction inputs generalizing u with
  | nil => exact goesFrom_pure ⟨rfl, trivial⟩
  | cons input later ih =>
      unfold Builder.linkInputs
      split
      · rw [hb]
        simp only [map_eq_pure_bind, bind_assoc, pure_bind]
        refine (goesFrom_allocate _ List.mem_cons_self).then fun object v _ hobject => ?_
        refine (goesFrom_compile_scratch hc input hobject.1).then fun unit v' _ _ => ?_
        exact ih.then fun _ _ _ _ => goesFrom_pure ⟨rfl, trivial⟩
      · simp only [pure_bind]
        exact ih.then fun _ _ _ _ => goesFrom_pure ⟨rfl, trivial⟩

/-- **An object request** finishes one output for each input, in order. -/
theorem goesFrom_buildObjects {c : Compiler} (hc : Serves c j)
    (hkind : j.request.kind = .object) {inputs : List Path} (h : inputs ⊆ j.request.inputs) :
    j.GoesFrom u (Builder.buildObjects c j.request.output inputs) fun artifacts _ done =>
      done.map Prod.fst = artifacts ∧
        List.Forall₂ (j.request.MadeOf j.layout.objectExtension) inputs artifacts := by
  induction inputs generalizing u with
  | nil => exact goesFrom_pure ⟨rfl, .nil⟩
  | cons input later ih =>
      unfold Builder.buildObjects
      refine (goesFrom_compile_output hc hkind (h List.mem_cons_self)).bind
        fun unit v done _ hunit => ?_
      obtain ⟨⟨xs, hdone⟩, hmade⟩ := hunit
      have hlater := ih (u := v) fun other hin => h (List.mem_cons_of_mem _ hin)
      refine hlater.bind fun artifacts v' more _ hartifacts => goesFrom_pure ⟨?_, ?_⟩
      · rw [hdone, List.append_nil, ← hartifacts.1]
        rfl
      · exact .cons hmade hartifacts.2

/-- A bundle is finished where it is made. -/
theorem goesFrom_bundle {k : Linker} (hk : k.host = j.host) (hkind : j.request.kind = .bundle)
    {input p : Path} (hinput : input ∈ j.request.inputs)
    (hp : j.request.MadeOf j.layout.bundleExtension input p) (unit : CompiledUnit) :
    j.GoesFrom u (k.bundle unit p) fun a _ done => a = p ∧ ∃ xs, done = [(p, xs)] := by
  have hne : j.request.kind ≠ .object := by
    rw [hkind]
    exact nofun
  unfold Linker.bundle
  refine (goesFrom_ofChecked _).then fun glue v _ _ => ?_
  exact goesFrom_finish hk hne (hp.output_bundle hkind hinput) glue _
    (fun glueObject => [glueObject, unit.path]) _ _ _ _

/-- **A bundle request** finishes one output for each input, in order. -/
theorem goesFrom_buildBundles {c : Compiler} {k : Linker} (hc : Serves c j)
    (hk : k.host = j.host) (hkind : j.request.kind = .bundle) {inputs : List Path}
    (h : inputs ⊆ j.request.inputs) :
    j.GoesFrom u (Builder.buildBundles j.layout c k j.request.output inputs)
      fun artifacts _ done => done.map Prod.fst = artifacts ∧
        List.Forall₂ (j.request.MadeOf j.layout.bundleExtension) inputs artifacts := by
  induction inputs generalizing u with
  | nil => exact goesFrom_pure ⟨rfl, .nil⟩
  | cons input later ih =>
      have hlater : ∀ v, j.GoesFrom v _ _ :=
        fun v => ih (u := v) fun other hin => h (List.mem_cons_of_mem _ hin)
      -- what follows is the same for an output that is given and for one that is named
      have hfinished : ∀ unit v p, j.request.MadeOf j.layout.bundleExtension input p →
          j.GoesFrom v (do
            let artifact ← k.bundle unit p
            return artifact :: (← Builder.buildBundles j.layout c k j.request.output later))
            fun artifacts _ done => done.map Prod.fst = artifacts ∧ List.Forall₂
              (j.request.MadeOf j.layout.bundleExtension) (input :: later) artifacts := by
        intro unit v p hp
        refine (goesFrom_bundle hk hkind (h List.mem_cons_self) hp unit).bind
          fun artifact v' done _ hartifact => ?_
        obtain ⟨hpath, xs, hdone⟩ := hartifact
        refine (hlater v').bind fun artifacts v'' more _ hartifacts => goesFrom_pure ⟨?_, ?_⟩
        · rw [hdone, hpath, List.append_nil, ← hartifacts.1]
          rfl
        · exact .cons (hpath ▸ hp) hartifacts.2
      unfold Builder.buildBundles
      rw [hc.host]
      refine (goesFrom_allocate _ List.mem_cons_self).then fun object v _ hobject => ?_
      refine (goesFrom_compile_scratch hc input hobject.1).then fun unit v' _ _ => ?_
      rcases hgiven : j.request.output with _ | p
      · rw [hgiven] at hfinished
        refine (goesFrom_withExtension (h List.mem_cons_self)
          (by simp [Toolchain.outputExtensions])).then fun p v'' _ hname => ?_
        exact hfinished unit v'' p (.inr ⟨hgiven, hname.1⟩)
      · rw [hgiven] at hfinished
        exact hfinished unit v' p (.inl hgiven)

/-- The output of an executable is what the request asks for, or else it is named
    after the first input. -/
theorem goesFrom_executableOutput (hkind : j.request.kind = .executable) :
    j.GoesFrom u (Builder.executableOutput j.request) (Ready fun p _ =>
      j.request.Output j.layout p ∧ (j.request.output = some p ∨ j.request.output = none ∧
        ∃ first, j.request.inputs.head? = some first ∧ first.withExtension "" = .ok p)) := by
  unfold Builder.executableOutput
  rcases hgiven : j.request.output with _ | p
  · rcases hinputs : j.request.inputs with _ | ⟨first, later⟩
    · exact goesFrom_complain _
    · have hfirst : first ∈ j.request.inputs := hinputs ▸ List.mem_cons_self
      have hhead : j.request.inputs.head? = some first := by rw [hinputs, List.head?_cons]
      refine (goesFrom_withExtension hfirst
        (by simp [Toolchain.outputExtensions])).mono fun p v done ⟨hdone, hname, _⟩ => ?_
      exact ⟨hdone, .executable hkind hgiven hhead hname, .inr ⟨rfl, first, rfl, hname⟩⟩
  · exact goesFrom_pure ⟨rfl, .given hgiven, .inl rfl⟩

/-- **What is made** is finished in its order, and is what was asked for. -/
theorem goesFrom_produce {b : Builder} {c : Compiler} {k : Linker} (hb : b.host = j.host)
    (hc : Serves c j) (hk : k.host = j.host) (prebuilt : Prebuilt) :
    j.GoesFrom u (b.produce j.request j.layout c k prebuilt) fun artifacts _ done =>
      done.map Prod.fst = artifacts ∧ j.request.Artifacts j.layout artifacts := by
  -- the kinds that link answer the one path that they finish
  have hone : ∀ {v : World} {p : Path} {act : Build Path},
      j.GoesFrom v act (fun a _ done => a = p ∧ ∃ xs, done = [(p, xs)]) →
      j.request.Artifacts j.layout [p] →
      j.GoesFrom v (act >>= fun a => pure [a]) fun artifacts _ done =>
        done.map Prod.fst = artifacts ∧ j.request.Artifacts j.layout artifacts := by
    intro v p act hact hshape
    refine hact.bind fun a v' done _ ⟨ha, xs, hdone⟩ => goesFrom_pure ⟨?_, ha ▸ hshape⟩
    rw [hdone, ha]
    rfl
  unfold Builder.produce
  rcases hkind : j.request.kind with _ | _ | _ | _
  case object =>
    refine (goesFrom_buildObjects hc hkind (List.Subset.refl _)).mono
      fun artifacts _ done ⟨hdone, hfor⟩ => ⟨hdone, ?_⟩
    unfold Request.Artifacts
    rw [hkind]
    exact hfor
  case bundle =>
    refine (goesFrom_buildBundles hc hk hkind (List.Subset.refl _)).mono
      fun artifacts _ done ⟨hdone, hfor⟩ => ⟨hdone, ?_⟩
    unfold Request.Artifacts
    rw [hkind]
    exact hfor
  case dylib =>
    have hne : j.request.kind ≠ .object := hkind ▸ nofun
    refine (goesFrom_linkInputs hb hc prebuilt _).then fun inputs v _ _ => ?_
    unfold Linker.dylib
    rcases hgiven : j.request.output with _ | p
    · exact (goesFrom_complain (α := Path) _).bind fun _ _ _ _ (hfalse : False) => hfalse.elim
    · refine hone (goesFrom_finish hk hne (.given hgiven) _ _
        (fun glueObject => glueObject :: inputs.map LinkInput.path) _ _ _ _) ?_
      unfold Request.Artifacts
      rw [hkind]
      exact ⟨p, rfl, hgiven⟩
  case executable =>
    have hne : j.request.kind ≠ .object := hkind ▸ nofun
    refine (goesFrom_linkInputs hb hc prebuilt _).then fun inputs v _ _ => ?_
    refine (goesFrom_executableOutput hkind).then fun p v' _ ⟨houtput, hnamed⟩ => ?_
    unfold Linker.executable
    refine hone (p := p) ((goesFrom_ofChecked _).then fun glue v'' _ _ =>
      goesFrom_finish hk hne houtput glue _
        (fun glueObject => glueObject :: inputs.map LinkInput.path) _ _ _ _) ?_
    unfold Request.Artifacts
    rw [hkind]
    exact ⟨p, rfl, hnamed⟩

/-- **The work of a build** consists of the steps of its project: where it answers,
    it has finished what it answers, in this order, and where it fails, it has been
    stopped in one of the ways that are listed. -/
theorem goesFrom_buildArtifacts (b : Builder) (r : Request) (layout : Toolchain)
    (tools : ToolPaths) (u : World) :
    GoesFrom ⟨b.host, r, layout⟩ u (b.buildArtifacts r layout tools) fun artifacts _ done =>
      done.map Prod.fst = artifacts ∧ r.Artifacts layout artifacts := by
  rw [Builder.buildArtifacts_eq]
  refine (goesFrom_readyMade rfl tools).then fun prebuilt v₁ _ _ => ?_
  refine (goesFrom_exceptionFlags rfl tools).then fun exceptions v₂ _ _ => ?_
  have hbridging : GoesFrom ⟨b.host, r, layout⟩ v₂ (Builder.bridgingFlags r layout)
      (Ready fun _ _ => True) := by
    unfold Builder.bridgingFlags
    split
    · exact goesFrom_bridgingFlags (List.Subset.refl _)
    · exact goesFrom_pure ⟨rfl, trivial⟩
  refine hbridging.then fun bridging v₃ _ _ => ?_
  exact goesFrom_produce rfl ⟨rfl, rfl, rfl⟩ rfl prebuilt

end Project

end AheadOfTime
