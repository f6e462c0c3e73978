import AheadOfTime.Proofs.Law

/-! # One session for the whole work

    The work on a request stays in the scratch session that was opened for it.  The
    session makes its directory when the first file is asked for, and then keeps it;
    a directory that could not be made is tried again under the next number.
    `World.Stays` says this of two worlds, and `Builder.stays_buildArtifacts` that
    the whole work on a request keeps to it, whatever the tools do. -/

namespace AheadOfTime

variable {α β : Type}

/-- The session is the same, and has kept the directory that it had; one that it
    did not have is numbered behind those that were tried before. -/
structure World.Stays (w v : World) : Prop where
  temporary : v.temporary = w.temporary
  label : v.scratch.label = w.scratch.label
  parent : v.scratch.parent = w.scratch.parent
  tried : w.scratchDirectories ≤ v.scratchDirectories
  kept : ∀ d, w.scratch.directory = some d → v.scratch.directory = some d
  made : ∀ d, v.scratch.directory = some d → w.scratch.directory = some d ∨
    ∃ n, w.scratchDirectories < n ∧ d = .ofString
      (Scratch.directoryText (w.scratch.parent.getD w.temporary) w.scratch.label n)

namespace World.Stays

variable {u v w : World}

/-- The session and what its directory is named after are the same. -/
theorem of_same (hscratch : v.scratch.directory = w.scratch.directory)
    (hlabel : v.scratch.label = w.scratch.label) (hparent : v.scratch.parent = w.scratch.parent)
    (htemporary : v.temporary = w.temporary)
    (htried : v.scratchDirectories = w.scratchDirectories) : w.Stays v where
  temporary := htemporary
  label := hlabel
  parent := hparent
  tried := Nat.le_of_eq htried.symm
  kept := fun _ hd => hscratch.trans hd
  made := fun _ hd => .inl (hscratch.symm.trans hd)

theorem refl (w : World) : w.Stays w := .of_same rfl rfl rfl rfl rfl

theorem trans (h : u.Stays v) (h' : v.Stays w) : u.Stays w where
  temporary := h'.temporary.trans h.temporary
  label := h'.label.trans h.label
  parent := h'.parent.trans h.parent
  tried := Nat.le_trans h.tried h'.tried
  kept := fun d hd => h'.kept d (h.kept d hd)
  made := fun d hd => by
    rcases h'.made d hd with hstanding | ⟨n, hn, hnew⟩
    · exact h.made d hstanding
    · rw [h.parent, h.label, h.temporary] at hnew
      exact .inr ⟨n, Nat.lt_of_le_of_lt h.tried hn, hnew⟩

theorem of_alike (h : Alike w v) : w.Stays v :=
  .of_same (by rw [h.scratch]) (by rw [h.scratch]) (by rw [h.scratch]) h.temporary
    h.scratchDirectories

theorem lasting : Lasting World.Stays := ⟨refl, trans⟩

/-- A directory that was made is not lost. -/
theorem directory_ne_none (h : w.Stays v) (hmade : w.scratch.directory ≠ none) :
    v.scratch.directory ≠ none := by
  obtain ⟨d, hd⟩ := Option.ne_none_iff_exists'.mp hmade
  rw [h.kept d hd]
  exact nofun

end World.Stays

/-- The session has no other directory than this one. -/
def World.WorksIn (w : World) (d : Path) : Prop := ∀ d', w.scratch.directory = some d' → d' = d

/-- Where a build works in one directory, it has worked in it all the time. -/
theorem World.WorksIn.earlier {w v : World} {d : Path} (h : v.WorksIn d) (hstays : w.Stays v) :
    w.WorksIn d := fun d' hd' => h d' (hstays.kept d' hd')

namespace Build

/-- The step stays in the session, whatever the world. -/
def Stays (act : Build α) : Prop := ∀ w : World, w.Stays (act.run w).2

/-- A still action stays. -/
theorem Still.stays {act : Build α} (h : act.Still) : act.Stays := fun w => .of_alike (h w)

/-- Two actions behind each other stay, if the second one does after what the first may
    answer. -/
theorem Stays.bind_ok {x : Build α} {f : α → Build β} (hx : x.Stays)
    (hf : ∀ a w v, x.run w = (.ok a, v) → (f a).Stays) : (x >>= f).Stays := by
  intro w
  have hfirst := hx w
  rcases hrun : x.run w with ⟨_ | a, v⟩
  · rw [hrun] at hfirst
    rw [run_bind_error hrun]
    exact hfirst
  · rw [hrun] at hfirst
    rw [run_bind_ok hrun]
    exact hfirst.trans (hf a w v hrun v)

theorem Stays.bind {x : Build α} {f : α → Build β} (hx : x.Stays) (hf : ∀ a, (f a).Stays) :
    (x >>= f).Stays := hx.bind_ok fun a _ _ _ => hf a

/-- A handler that stays may stand behind an action that does. -/
theorem Stays.tryCatch {act : Build α} {handle : Failure → Build α} (h : act.Stays)
    (hhandle : ∀ e, (handle e).Stays) : (tryCatch act handle).Stays := by
  intro w
  have hact := h w
  rw [run_tryCatch]
  rcases hrun : act.run w with ⟨e | a, v⟩
  · rw [hrun] at hact
    exact hact.trans (hhandle e v)
  · rw [hrun] at hact
    exact hact

/-- What is done on the disk stays, whatever it is. -/
theorem stays_onDisk (act : Disk α) : (onDisk act).Stays := by
  intro w
  rw [run_onDisk]
  rcases act.run w.files with ⟨_ | _, files⟩ <;> exact .of_same rfl rfl rfl rfl rfl

theorem stays_scratchDirectory : scratchDirectory.Stays := by
  intro w
  have hgives := givesDirectory w
  generalize scratchDirectory.run w = outcome at hgives ⊢
  cases hgives with
  | standing => exact .refl w
  | refused hnone _ => exact ⟨rfl, rfl, rfl, Nat.le_succ _, fun _ hd => hd, fun _ hd => .inl hd⟩
  | made hnone _ =>
      refine ⟨rfl, rfl, rfl, Nat.le_succ _, fun d hd => (nomatch hnone.symm.trans hd),
        fun d hd => ?_⟩
      exact .inr ⟨_, Nat.lt_succ_self _, (Option.some.inj hd).symm⟩

theorem stays_allocate (host : Host) (stem extension : String) :
    (allocate host stem extension).Stays := by
  intro w
  have hdirectory := stays_scratchDirectory w
  have hhands := handsOut host stem extension w
  generalize (allocate host stem extension).run w = outcome at hhands ⊢
  cases hhands with
  | closed => exact .refl w
  | refused _ hrun =>
      rw [hrun] at hdirectory
      exact hdirectory
  | given _ hrun _ =>
      rw [hrun] at hdirectory
      exact hdirectory.trans (.of_same rfl rfl rfl rfl rfl)

end Build

/-- A call stays, whatever the tool does. -/
theorem Host.stays_call (host : Host) (c : Call) : (host.call c).Stays := by
  intro w
  rcases hargv : c.argv with _ | ⟨program, arguments⟩
  · rw [host.run_call_of_nil hargv]
    exact .refl w
  · rw [host.run_call c hargv]
    exact .of_same rfl rfl rfl rfl rfl

theorem Host.stays_run (host : Host) (c : Call) : (host.run c).Stays :=
  (host.stays_call c).bind fun reply => (c.still_conclude reply).stays

/-! ## The work on a request -/

/-- The elementary steps of a build stay in the session. -/
theorem World.Stays.covers (host : Host) (asks : Call → Prop) :
    Law.Covers (fun w _ v => w.Stays v) host asks where
  idle := .refl
  next := .trans
  disk := fun _ h => h.trans (.of_same rfl rfl rfl rfl rfl)
  overrule := fun _ h => h
  stop := fun w _ _ => .refl w
  warn := fun _ w => .of_same (w := w) rfl rfl rfl rfl rfl
  passThrough := fun _ w => .of_same (w := w) rfl rfl rfl rfl rfl
  allocate := Build.stays_allocate host
  call := fun _ => host.stays_run _

namespace Compiler

variable (c : Compiler)

/-- Architectures stay where their parts do, also side by side. -/
theorem stays_compileAll (source : Path) (e : EntryPoint) : (c.compileAll source e).Stays := by
  intro w
  refine lasts_compileAll World.Stays.lasting ⟨?_, ?_, ?_⟩ (fun w => ?_) source e w
  · exact fun stem extension _ => Build.stays_allocate c.host stem extension
  · exact fun call _ => c.host.stays_call call
  · exact fun call _ reply => (call.still_conclude reply).stays
  · obtain ⟨pools, hhired⟩ := c.hired_frame w
    rw [hhired]
    exact .of_same rfl rfl rfl rfl rfl

theorem stays_mergeObjects (objects : List Path) (output : Path) (input : Option String) :
    (c.host.mergeObjects c.tools.lipo objects output input).Stays :=
  (World.Stays.covers c.host c.MayCall).bears.mergeObjects objects output input

theorem stays_compile (source : Path) (output : Option Path) : (c.compile source output).Stays :=
  (World.Stays.covers c.host c.MayCall).bears.compile (fun _ _ => .of_same rfl rfl rfl rfl rfl)
    c.stays_compileAll source output

end Compiler

/-- **The work on a request** stays in its scratch session. -/
theorem Builder.stays_buildArtifacts (b : Builder) (r : Request) (layout : Toolchain)
    (tools : ToolPaths) : (b.buildArtifacts r layout tools).Stays := by
  intro w
  obtain ⟨_, _, hstays⟩ := Law.Covers.buildArtifacts
    (fun _ _ => World.Stays.covers b.host (b.MayLink r layout tools))
    (fun exceptions bridging => (b.compilerFor r layout tools exceptions bridging).stays_compile) w
  exact hstays

/-- To note a failure is to stay. -/
theorem Builder.stays_noteFailure {act : Build α} (h : act.Stays) : (noteFailure act).Stays := by
  refine h.tryCatch fun failure => ?_
  cases failure with
  | problem p => exact (Build.still_log _).stays.bind fun _ => (Build.still_throw _).stays
  | fault f => exact (Build.still_throw _).stays

end AheadOfTime
