import AheadOfTime.Proofs.Course

/-! # Steps that call no tool

    Most of what a build does between its calls leaves everything alone that the
    calls depend on.  A step is still if it changes at most the log, the
    warnings, the names drawn and the workers noted, and quiet if it makes no call,
    whatever it does to the files. -/

namespace AheadOfTime

variable {α β : Type}

/-- Nothing differs but the log, the warnings, the names drawn and the workers
    noted. -/
structure World.Alike (w v : World) : Prop where
  files : v.files = w.files
  temporary : v.temporary = w.temporary
  scratchDirectories : v.scratchDirectories = w.scratchDirectories
  scratch : v.scratch = w.scratch
  exchanges : v.exchanges = w.exchanges

namespace World.Alike

theorem refl (w : World) : Alike w w := ⟨rfl, rfl, rfl, rfl, rfl⟩

theorem trans {u v w : World} (h : Alike u v) (h' : Alike v w) : Alike u w :=
  ⟨h'.files.trans h.files, h'.temporary.trans h.temporary,
    h'.scratchDirectories.trans h.scratchDirectories, h'.scratch.trans h.scratch,
    h'.exchanges.trans h.exchanges⟩

theorem symm {u v : World} (h : Alike u v) : Alike v u :=
  ⟨h.files.symm, h.temporary.symm, h.scratchDirectories.symm, h.scratch.symm, h.exchanges.symm⟩

end World.Alike

namespace Build

/-! ## Still steps -/

/-- The step leaves a world like the one it starts in. -/
def Still (act : Build α) : Prop := ∀ w, World.Alike w (act.run w).2

/-- What a still action leaves is like what it found. -/
theorem Still.alike {act : Build α} (hact : Still act) {w v : World}
    {answer : Except Failure α} (h : act.run w = (answer, v)) : World.Alike w v := by
  have hstill := hact w
  rw [h] at hstill
  exact hstill

/-- Two still actions behind each other are still. -/
theorem Still.bind {x : Build α} {f : α → Build β} (hx : Still x) (hf : ∀ a, Still (f a)) :
    Still (x >>= f) := by
  intro w
  rcases hrun : x.run w with ⟨_ | a, v⟩
  · rw [run_bind_error hrun]
    exact hx.alike hrun
  · rw [run_bind_ok hrun]
    exact (hx.alike hrun).trans (hf a v)

theorem still_pure (a : α) : Still (pure a : Build α) := fun w => .refl w

theorem still_throw (e : Failure) : Still (throw e : Build α) := fun w => .refl w

theorem still_complain (p : Problem) : Still (complain p : Build α) := fun w => .refl w

theorem still_get : Still (get : Build World) := fun w => .refl w

theorem still_log (r : Record) : Still (log r) := fun _ => ⟨rfl, rfl, rfl, rfl, rfl⟩

theorem still_warn (n : Notice) : Still (warn n) := fun _ => ⟨rfl, rfl, rfl, rfl, rfl⟩

/-- To check is to be still. -/
theorem still_ofChecked (result : Except Problem α) : Still (ofChecked result) := by
  intro w
  rw [run_ofChecked]
  exact .refl w

theorem still_ofFallible (result : Except Fault α) : Still (ofFallible result) := by
  intro w
  rw [run_ofFallible]
  exact .refl w

end Build

/-- A draw is not seen in the world's files, calls and scratch session. -/
theorem EntryPoint.still_generate : Build.Still EntryPoint.generate := by
  intro w
  unfold EntryPoint.generate
  rw [run_bind_ok (run_get w)]
  dsimp only
  rw [run_bind_ok (run_set _ w), Build.run_ofChecked]
  exact ⟨rfl, rfl, rfl, rfl, rfl⟩

/-- To read a listing is to be still, with or without a warning. -/
theorem SymbolListing.still_entryPoint? (listing : String) (source : Option Path) :
    Build.Still (entryPoint? listing source) := by
  intro w
  rw [run_entryPoint?]
  split
  · exact .refl w
  · exact .refl w
  · exact ⟨rfl, rfl, rfl, rfl, rfl⟩

theorem Toolchain.still_bridgingFlags (t : Toolchain) (frameworks : List String) :
    Build.Still (t.bridgingFlags frameworks) := by
  induction frameworks with
  | nil => exact Build.still_pure _
  | cons framework later ih =>
      refine Build.still_get.bind fun w => ?_
      refine (Build.still_ofFallible _).bind fun isThere => ?_
      by_cases h : isThere = true
      · rw [if_pos h]
        exact ih.bind fun _ => Build.still_pure _
      · rw [if_neg h]
        exact (Build.still_warn _).bind fun _ => ih

/-- **Validation** is still: it looks at files, and warns. -/
theorem Toolchain.still_validate (t : Toolchain) (r : Request) : Build.Still (t.validate r) := by
  intro w
  rw [run_validate]
  split
  · exact ⟨rfl, rfl, rfl, rfl, rfl⟩
  · exact .refl w

/-- To locate the tools is to be still. -/
theorem Locator.still_locate (l : Locator) (t : Toolchain) : Build.Still (l.locate t) := by
  intro w
  cases l with
  | fixed tools => exact .refl w
  | search searchPath =>
      unfold locate
      rw [run_bind_ok (run_get w), Build.run_ofResult]
      exact .refl w

namespace Builder

theorem still_furnish (b : Builder) (r : Request) : Build.Still (b.furnish r) := by
  unfold furnish
  refine (b.toolchain.still_validate r).bind fun layout => ?_
  refine (b.locator.still_locate b.toolchain).bind fun tools => ?_
  exact (Build.still_log _).bind fun _ => Build.still_pure _

theorem still_bridgingFlags (r : Request) (layout : Toolchain) :
    Build.Still (bridgingFlags r layout) := by
  unfold bridgingFlags
  split
  · exact layout.still_bridgingFlags _
  · exact Build.still_pure _

theorem still_executableOutput (r : Request) : Build.Still (executableOutput r) := by
  unfold executableOutput
  split
  · exact Build.still_pure _
  · exact Build.still_ofFallible _
  · exact Build.still_complain _

/-- To settle the entry point of an object is at most to log. -/
theorem still_settleObject (r : Request) (object : Path) (e : Option EntryPoint) :
    Build.Still (settleObject r object e) := by
  cases e with
  | some e => exact Build.still_pure _
  | none =>
      rw [settleObject_none]
      split
      · exact Build.still_complain _
      · exact Build.still_log _

end Builder

/-- What a reply comes to leaves all but the log alone. -/
theorem Call.still_conclude (c : Call) (reply : Reply) : (c.conclude reply).Still := by
  intro w
  rcases hargv : c.argv with _ | ⟨program, arguments⟩
  · unfold conclude
    rw [hargv]
    exact .refl w
  · rw [c.run_conclude hargv]
    rcases reply with ⟨status, output⟩ | _ | fault
    · dsimp only
      split
      · exact ⟨rfl, rfl, rfl, rfl, rfl⟩
      · exact .refl w
    · exact .refl w
    · exact .refl w

/-- What a reply comes to does not depend on the world. -/
theorem Call.answer_conclude (c : Call) (reply : Reply) (v w : World) :
    ((c.conclude reply).run w).1 = ((c.conclude reply).run v).1 := by
  rcases hargv : c.argv with _ | ⟨program, arguments⟩
  · unfold conclude
    rw [hargv]
    rfl
  · rw [c.run_conclude hargv, c.run_conclude hargv]
    rcases reply with ⟨status, output⟩ | _ | fault
    · dsimp only
      split <;> rfl
    · rfl
    · rfl

/-- A command differs from its call in what the log says at most. -/
theorem Host.alike_hostRun (host : Host) {c : Call} (h : c.argv ≠ []) (w : World) :
    ∃ program, World.Alike (host.asked c program w) ((host.run c).run w).2 := by
  obtain ⟨program, arguments, hargv⟩ := List.exists_cons_of_ne_nil h
  refine ⟨program, ?_⟩
  unfold run
  rw [run_bind_ok (host.run_call c hargv w)]
  exact c.still_conclude _ _

/-! ## Quiet steps -/

namespace Build

/-- The step adds no exchange, whatever the world. -/
def Quiet (act : Build α) : Prop := ∀ w, (act.run w).2.exchanges = w.exchanges

/-- A still step is quiet. -/
theorem Still.quiet {act : Build α} (h : Still act) : Quiet act := fun w => (h w).exchanges

/-- A quiet step leaves the exchanges as they were. -/
theorem Quiet.exchanges_eq {act : Build α} (hact : Quiet act) {w v : World}
    {answer : Except Failure α} (h : act.run w = (answer, v)) : v.exchanges = w.exchanges := by
  have hquiet := hact w
  rw [h] at hquiet
  exact hquiet

/-- Two quiet actions behind each other are quiet. -/
theorem Quiet.bind {x : Build α} {f : α → Build β} (hx : Quiet x) (hf : ∀ a, Quiet (f a)) :
    Quiet (x >>= f) := by
  intro w
  rcases hrun : x.run w with ⟨_ | a, v⟩
  · rw [run_bind_error hrun]
    exact hx.exchanges_eq hrun
  · rw [run_bind_ok hrun, hf a v]
    exact hx.exchanges_eq hrun

/-- The disk is no part of the log. -/
theorem quiet_onDisk (act : Disk α) : Quiet (onDisk act) := by
  intro w
  rw [run_onDisk]
  rcases act.run w.files with ⟨_ | _, files⟩ <;> rfl

/-- The scratch directory is made without a record. -/
theorem quiet_scratchDirectory : Quiet scratchDirectory := by
  intro w
  have hgives := givesDirectory w
  generalize scratchDirectory.run w = outcome at hgives ⊢
  cases hgives with
  | standing | made | refused => rfl

/-- Scratch files are handed out without a record. -/
theorem quiet_allocate (host : Host) (stem extension : String) :
    Quiet (allocate host stem extension) := by
  intro w
  have hhands := handsOut host stem extension w
  generalize (allocate host stem extension).run w = outcome at hhands ⊢
  cases hhands with
  | closed => rfl
  | refused _ hdirectory => exact quiet_scratchDirectory.exchanges_eq hdirectory
  | @given _ _ v _ hdirectory _ =>
      show v.exchanges = w.exchanges
      exact quiet_scratchDirectory.exchanges_eq hdirectory

/-- A scratch session is opened without a record. -/
theorem quiet_openScratch (parent : Option Path) (label : String) :
    Quiet (openScratch parent label) := fun _ => rfl

/-- Cleaning up calls no tool. -/
theorem quiet_cleanUp : Quiet cleanUp := by
  intro w
  rw [run_cleanUp]
  rfl

end Build

/-! ## The ends of a build -/

namespace Builder

/-- The toolchain of a build that has begun is that of its request. -/
theorem furnish_ok {b : Builder} {r : Request} {layout : Toolchain} {tools : ToolPaths}
    {w v : World} (h : (b.furnish r).run w = (.ok (layout, tools), v)) :
    r.check b.toolchain w.files = .ok () ∧ layout = r.layout b.toolchain := by
  obtain ⟨layout', w₁, hvalid, h₁⟩ := run_bind_eq_ok h
  obtain ⟨tools', w₂, -, h₂⟩ := run_bind_eq_ok h₁
  obtain ⟨_, w₃, -, h₃⟩ := run_bind_eq_ok h₂
  obtain ⟨hcheck, hlayout⟩ := Toolchain.validate_ok hvalid
  have hpair := (run_pure_eq_ok h₃).1
  exact ⟨hcheck, (congrArg Prod.fst hpair).symm.trans hlayout.symm⟩

/-- A build that answers has passed the checks, and has done its work in a
    scratch session. -/
theorem run_ok {b : Builder} {r : Request} {result : BuildResult} {w v : World}
    (h : (b.run r).run w = (.ok result, v)) :
    r.check b.toolchain w.files = .ok () ∧ ∃ tools u u',
      (b.buildArtifacts r (r.layout b.toolchain) tools).run u = (.ok result.artifacts, u') ∧
      u.exchanges = w.exchanges ∧ v.exchanges = u'.exchanges := by
  rw [run_eq] at h
  obtain ⟨⟨layout, tools⟩, w₁, hbegun, h₁⟩ := run_bind_eq_ok h
  obtain ⟨_, w₂, hopen, h₂⟩ := run_bind_eq_ok h₁
  obtain ⟨artifacts, w₃, hwork, h₃⟩ := run_bind_eq_ok h₂
  obtain ⟨_, w₄, hlog, h₄⟩ := run_bind_eq_ok h₃
  obtain ⟨rfl, rfl⟩ := run_pure_eq_ok h₄
  obtain ⟨hcheck, rfl⟩ := furnish_ok hbegun
  -- what the run answers, its work has answered inside the session
  obtain ⟨u', hwork, hclean⟩ := Build.ensuring_ok hwork
  refine ⟨hcheck, tools, w₂, u', noteFailure_ok hwork, ?_, ?_⟩
  · rw [(Build.quiet_openScratch _ _).exchanges_eq hopen,
      (b.still_furnish r).quiet.exchanges_eq hbegun]
  · rw [(Build.still_log _).quiet.exchanges_eq hlog, Build.quiet_cleanUp.exchanges_eq hclean]

end Builder

end AheadOfTime
