import AheadOfTime.Proofs.Cleaning
import AheadOfTime.Proofs.Compilation

/-! # Compilations do not mix

    A build compiles one source after the other, and between compilations it may
    hand out scratch files for other things.  `Compiler.Traced` says of a stretch
    of a build which compilations it was made of, also if it was broken off:
    their calls are all the calls that compile, their files are numbered, and
    their entry points were drawn.  Being so traced is a law that can be read
    step by step, so every build meets it.

    Hence `run_compilations_apart`: what a compilation hands on is read by the
    call it is meant for, and no file and no entry point occurs in two places,
    also where the architectures are compiled side by side. -/

namespace AheadOfTime

/-! ## Whole compilations -/

namespace Compiler

/-- What was done between two worlds is the work of these compilations, the last
    of which may have been broken off: their files were handed out, and their entry
    points were drawn. -/
structure Traced (c : Compiler) (w : World) (o : Option Failure) (v : World)
    (us : List Compilation) (made : List Exchange) : Prop where
  exchanges : v.exchanges = w.exchanges ++ made
  traces : c.Traces us (compileCalls made)
  whole : o = none → c.Whole us (compileCalls made)
  drawn : Drawn w.draws v.draws (us.map (·.entryPoint.symbol))
  furnishes : w.Furnishes c.host v (us.flatMap Compilation.files)

/-- Where the object of a source goes: to the place given for it, or to the
    default one. -/
def PutsTo (c : Compiler) (source : Path) (output : Option Path) (destination : Path) : Prop :=
  match output with
  | some output => output = destination
  | none => c.defaultOutput source = .ok destination

section

variable {c : Compiler} {u : Compilation} {w v : World} {o : Option Failure} {made : List Exchange}

/-- Work that compiles nothing. -/
theorem Traced.of_others (hexchanges : v.exchanges = w.exchanges ++ made)
    (hothers : compileCalls made = []) (hdrawn : Drawn w.draws v.draws [])
    (hfurnishes : w.Furnishes c.host v []) : c.Traced w o v [] made where
  exchanges := hexchanges
  traces := by
    rw [hothers]
    exact .nil
  whole := fun _ => by
    rw [hothers]
    exact .nil
  drawn := hdrawn
  furnishes := hfurnishes

theorem files_one (u : Compilation) :
    [u].flatMap Compilation.files = u.shares.flatMap Share.files := by
  rw [List.flatMap_cons, List.flatMap_nil, List.append_nil]
  rfl

/-- Work that is broken off before the merge. -/
theorem Traced.of_breaks {f : Failure} (hexchanges : v.exchanges = w.exchanges ++ made)
    (h : c.Breaks u (made.map (·.call))) (hdrawn : Drawn w.draws v.draws [u.entryPoint.symbol])
    (hfurnishes : w.Furnishes c.host v (u.shares.flatMap Share.files)) :
    c.Traced w (some f) v [u] made where
  exchanges := hexchanges
  traces := by
    rw [h.2.compileCalls]
    exact .broken h
  whole := nofun
  drawn := hdrawn
  furnishes := by
    rw [files_one]
    exact hfurnishes

/-- Work that gets to the merge. -/
theorem Traced.of_calls (hexchanges : v.exchanges = w.exchanges ++ made)
    (h : c.Calls u (made.map (·.call))) (hdrawn : Drawn w.draws v.draws [u.entryPoint.symbol])
    (hfurnishes : w.Furnishes c.host v (u.shares.flatMap Share.files)) :
    c.Traced w o v [u] made := by
  have hall : compileCalls made = made.map (·.call) := by
    obtain ⟨-, front, hfront, hcalls⟩ := h
    refine List.filter_eq_self.mpr fun call hcall => ?_
    rw [hcalls] at hcall
    rcases List.mem_append.mp hcall with hin | hmerge
    · exact (hfront.begins.stage hin).1
    · rw [List.mem_singleton.mp hmerge]
      rfl
  refine ⟨hexchanges, ?_, fun _ => ?_, hdrawn, ?_⟩
  · rw [hall]
    exact (Whole.one h).traces
  · rw [hall]
    exact .one h
  · rw [files_one]
    exact hfurnishes

end

/-- How a compilation came out: it was broken off before its merge, with a failure, or
    it has made all its calls. -/
def Comes (c : Compiler) (u : Compilation) (answer : Except Failure CompiledUnit)
    (cs : List Call) : Prop :=
  (c.Breaks u cs ∧ ∃ f, answer = .error f) ∨
    (c.Calls u cs ∧ ∀ unit, answer = .ok unit → unit = ⟨u.source, u.destination, u.entryPoint⟩)

/-- Merging what there is to merge makes no call but the merge, and leaves all but the
    files, the log and the exchanges alone. -/
theorem merges (c : Compiler) (destination : Path) (v : World) {source : Path} {e : EntryPoint}
    {shares : List Share} {front : List Exchange}
    (harchs : shares.map Share.arch = c.archs)
    (hfront : c.Weaves source e shares (front.map (·.call))) :
    let u : Compilation := ⟨source, e, shares, destination⟩
    let outcome := (do
      let _ ← c.host.mergeObjects c.tools.lipo (shares.map Share.object) destination
        (some source.toString)
      return (⟨source, destination, e⟩ : CompiledUnit)).run v
    ∃ more files log, outcome.2 = { v with files, log, exchanges := v.exchanges ++ more } ∧
      c.Comes u outcome.1 ((front ++ more).map (·.call)) := by
  dsimp only
  obtain ⟨more, files, log, hworld, hpart, hwhole⟩ :=
    (c.host.makes_mergeObjects c.tools.lipo (shares.map Share.object) destination
      (some source.toString)).map (fun _ => (⟨source, destination, e⟩ : CompiledUnit)) v
  refine ⟨more, files, log, hworld, ?_⟩
  generalize hanswer : ((do
      let _ ← c.host.mergeObjects c.tools.lipo (shares.map Share.object) destination
        (some source.toString)
      return (⟨source, destination, e⟩ : CompiledUnit) : Build CompiledUnit).run v)
        = outcome at hwhole
  rw [List.map_append]
  rcases List.prefix_cons_iff.mp hpart with hnone | ⟨rest, hmore, hrest⟩
  · -- the merge was not called
    rw [hnone, List.append_nil]
    obtain ⟨f | unit, v'⟩ := outcome
    · exact .inl ⟨⟨harchs ▸ List.Sublist.refl _, hfront.begins⟩, f, rfl⟩
    · exact nomatch hnone.symm.trans (hwhole rfl)
  · rw [hmore, List.prefix_nil.mp hrest]
    refine .inr ⟨⟨harchs, _, hfront, rfl⟩, fun unit hunit => ?_⟩
    obtain ⟨unit', v'⟩ := outcome
    obtain rfl : unit' = .ok unit := hunit
    obtain ⟨_, _, -, hpure⟩ := run_bind_eq_ok hanswer
    exact (run_pure_eq_ok hpure).1.symm

/-- **After the draw of its entry point**, a compilation makes its calls, as far as it
    gets. -/
theorem traced_of_drawn (c : Compiler) (source destination : Path) (e : EntryPoint) {w : World}
    {draws : Draws} (hdrawn : Drawn w.draws draws [e.symbol]) {act : Build CompiledUnit}
    (hact : act = c.finishAt source e destination) :
    ∃ (u : Compilation) (made : List Exchange),
      c.Traced w (failure? (act.run { w with draws }).1) (act.run { w with draws }).2 [u] made ∧
      u.source = source ∧ u.destination = destination ∧
      c.Comes u (act.run { w with draws }).1 (made.map (·.call)) := by
  subst hact
  unfold finishAt
  have hdraws : ∀ {v : World} {files}, World.Furnishes c.host { w with draws } v files →
      w.Furnishes c.host v files := fun h => h.behind (.of_same rfl rfl rfl rfl rfl) (Nat.le_refl _)
  rcases hall : (c.compileAll source e).run { w with draws } with ⟨f | objects, v⟩
  · -- an architecture ended the work, so that no merge is called
    obtain ⟨shares, made, hshared⟩ := shared_compileAll hall
    rw [run_bind_error hall]
    have hbreaks : c.Breaks ⟨source, e, shares, destination⟩ (made.map (·.call)) :=
      ⟨hshared.archs, hshared.begins⟩
    refine ⟨⟨source, e, shares, destination⟩, made, .of_breaks hshared.exchanges hbreaks ?_
      (hdraws hshared.furnishes), rfl, rfl, .inl ⟨hbreaks, f, rfl⟩⟩
    rw [hshared.draws]
    exact hdrawn
  · -- all architectures are done, and the merge of their objects is what is left
    obtain ⟨shares, front, hshared⟩ := shared_compileAll hall
    obtain ⟨harchs, rfl, hweaves⟩ := hshared.whole objects rfl
    rw [run_bind_ok hall]
    obtain ⟨more, files, log, hworld, hcomes⟩ :=
      c.merges destination v harchs hweaves
    have hexchanges : v.exchanges ++ more = w.exchanges ++ (front ++ more) := by
      rw [hshared.exchanges, List.append_assoc]
    have hdrawn' : Drawn w.draws v.draws [e.symbol] := by
      rw [hshared.draws]
      exact hdrawn
    have hfurnishes : w.Furnishes c.host { v with files, log, exchanges := v.exchanges ++ more }
        (shares.flatMap Share.files) :=
      (hdraws hshared.furnishes).before (.of_same rfl rfl rfl rfl rfl) (Nat.le_refl _)
    refine ⟨⟨source, e, shares, destination⟩, front ++ more, ?_, rfl, rfl, hcomes⟩
    rw [hworld]
    rcases hcomes with ⟨hbreaks, f, hf⟩ | ⟨hcalls, -⟩
    · rw [hf]
      exact .of_breaks hexchanges hbreaks hdrawn' hfurnishes
    · exact .of_calls hexchanges hcalls hdrawn' hfurnishes

/-- **A compilation** makes the calls of one, as far as it gets, or none if it
    fails before. -/
theorem compile_traced (c : Compiler) (source : Path) (output : Option Path) (w : World) :
    ∃ (us : List Compilation) (made : List Exchange),
      c.Traced w (failure? ((c.compile source output).run w).1) ((c.compile source output).run w).2
        us made ∧
      (us = [] ∧ made = [] ∧ (∃ f, ((c.compile source output).run w).1 = .error f) ∨
        ∃ u, us = [u] ∧ u.source = source ∧ c.PutsTo source output u.destination ∧
          c.Comes u ((c.compile source output).run w).1 (made.map (·.call))) := by
  let draws := w.draws.next.2
  -- the name is issued even if nothing comes of it
  have hdrawn : Drawn w.draws draws [w.draws.next.1] := .next w.draws
  have hbefore : ∀ f, c.Traced w (some f) { w with draws } [] [] := fun f =>
    .of_others (List.append_nil _).symm rfl hdrawn.forget
      (.none (.of_same rfl rfl rfl rfl rfl) (Nat.le_refl _))
  unfold compile
  rw [run_bind, EntryPoint.run_generate]
  rcases hsymbol : EntryPoint.ofSymbol w.draws.next.1 with p | e
  · exact ⟨[], [], hbefore _, .inl ⟨rfl, rfl, _, rfl⟩⟩
  · rw [← EntryPoint.symbol_eq_of_ofSymbol hsymbol] at hdrawn
    dsimp only [Except.mapError]
    cases output with
    | some output =>
        obtain ⟨u, made, htraced, hsource, hdestination, hcomes⟩ :=
          c.traced_of_drawn source output e hdrawn rfl
        exact ⟨[u], made, htraced, .inr ⟨u, rfl, hsource, hdestination.symm, hcomes⟩⟩
    | none =>
        rw [run_bind, Build.run_ofFallible]
        rcases houtput : c.defaultOutput source with f | destination
        · exact ⟨[], [], hbefore _, .inl ⟨rfl, rfl, _, rfl⟩⟩
        · obtain ⟨u, made, htraced, hsource, hdestination, hcomes⟩ :=
            c.traced_of_drawn source destination e hdrawn rfl
          exact ⟨[u], made, htraced,
            .inr ⟨u, rfl, hsource, hdestination ▸ houtput, hcomes⟩⟩

/-- A compilation of the source has made all its calls, and the unit it answers is
    the one that it says. -/
structure Performed (c : Compiler) (source : Path) (output : Option Path)
    (answer : Except Failure CompiledUnit) (made : List Exchange) (u : Compilation) : Prop where
  source_eq : u.source = source
  destination : c.PutsTo source output u.destination
  calls : c.Calls u (made.map (·.call))
  answer_eq : ∀ unit, answer = .ok unit → unit = ⟨u.source, u.destination, u.entryPoint⟩

/-- **A compilation that answers**, or has got to its merge, is one in full. -/
theorem compile_performed (c : Compiler) (source : Path) (output : Option Path) (w : World) :
    ∃ made, ((c.compile source output).run w).2.exchanges = w.exchanges ++ made ∧
      ((∃ x ∈ made, x.call.stage = .merge) ∨
          (∃ unit, ((c.compile source output).run w).1 = .ok unit) →
        ∃ u, c.Performed source output ((c.compile source output).run w).1 made u) := by
  obtain ⟨us, made, htraced, hone⟩ := c.compile_traced source output w
  refine ⟨made, htraced.exchanges, fun hdone => ?_⟩
  rcases hone with ⟨-, rfl, f, hfailed⟩ | ⟨u, rfl, hsource, hputs, ⟨hbreaks, f, hfailed⟩ | hcalls⟩
  · rcases hdone with ⟨x, hx, -⟩ | ⟨unit, hanswer⟩
    · exact nomatch hx
    · exact nomatch hanswer.symm.trans hfailed
  · -- what was broken off has neither a merge nor an answer
    rcases hdone with ⟨x, hx, hmerge⟩ | ⟨unit, hanswer⟩
    · exact absurd hmerge (hbreaks.2.stage (List.mem_map_of_mem hx)).2
    · exact nomatch hanswer.symm.trans hfailed
  · exact ⟨u, hsource, hputs, hcalls.1, hcalls.2⟩

/-! ## Stretches of a build -/

/-- The law of the compilations of a build. -/
def traced (c : Compiler) : Law := fun w o v => ∃ us made, c.Traced w o v us made

section

variable {c : Compiler} {u v w : World} {o : Option Failure} {us us' : List Compilation}
  {made more : List Exchange}

/-- The compilations of one stretch, and then those of the next one. -/
theorem Traced.trans (h : c.Traced u none v us made) (h' : c.Traced v o w us' more) :
    c.Traced u o w (us ++ us') (made ++ more) where
  exchanges := by rw [h'.exchanges, h.exchanges, List.append_assoc]
  traces := by
    rw [compileCalls_append]
    exact (h.whole rfl).append_traces h'.traces
  whole := fun ho => by
    rw [compileCalls_append]
    exact (h.whole rfl).append (h'.whole ho)
  drawn := by
    rw [List.map_append]
    exact h.drawn.append h'.drawn
  furnishes := by
    rw [List.flatMap_append]
    exact h.furnishes.trans h'.furnishes

/-- Nothing was done that matters to compilations. -/
theorem Traced.idle (hexchanges : v.exchanges = w.exchanges) (hdraws : v.draws = w.draws)
    (hstays : w.Stays v) (hids : w.scratchIds ≤ v.scratchIds) : c.Traced w o v [] [] :=
  .of_others (by rw [hexchanges, List.append_nil]) rfl (by rw [hdraws]; exact .refl _)
    (.none hstays hids)

/-- A call that does not compile belongs to no compilation. -/
theorem traced_hostRun (c : Compiler) {call : Call} (hother : call.compiles = false) :
    (c.host.run call).Meets c.traced := by
  intro w
  obtain ⟨made, files, log, hworld, hpart, -⟩ := Build.makes_hostRun c.host call w
  have hnone : compileCalls made = [] := by
    refine List.filter_eq_nil_iff.mpr fun other hin => ?_
    rw [List.mem_singleton.mp (hpart.subset hin), hother]
    exact nofun
  rw [hworld]
  exact ⟨[], made, .of_others rfl hnone (.refl _)
    (.none (.of_same rfl rfl rfl rfl rfl) (Nat.le_refl _))⟩

end

/-- All that a build does between its compilations leaves them apart. -/
theorem covers_traced (c : Compiler) {asks : Call → Prop}
    (hasks : ∀ call, asks call → call.compiles = false) : c.traced.Covers c.host asks where
  idle := fun w => ⟨[], [], .idle rfl rfl (.refl w) (Nat.le_refl _)⟩
  next := fun ⟨us, made, h⟩ ⟨us', more, h'⟩ => ⟨us ++ us', made ++ more, h.trans h'⟩
  disk := fun files ⟨us, made, h⟩ => ⟨us, made, h.exchanges, h.traces, h.whole, h.drawn,
    h.furnishes.before (.of_same rfl rfl rfl rfl rfl) (Nat.le_refl _)⟩
  overrule := fun f ⟨us, made, h⟩ => ⟨us, made, h.exchanges, h.traces, nofun, h.drawn, h.furnishes⟩
  stop := fun w _ _ => ⟨[], [], .idle rfl rfl (.refl w) (Nat.le_refl _)⟩
  warn := fun n w => ⟨[], [], .idle rfl rfl (.of_same rfl rfl rfl rfl rfl) (Nat.le_refl _)⟩
  passThrough := fun input w =>
    ⟨[], [], .idle rfl rfl (.of_same rfl rfl rfl rfl rfl) (Nat.le_refl _)⟩
  allocate := fun stem extension w => by
    obtain ⟨⟨files, directories, ids, scratch, hids, hframe⟩, -⟩ :=
      Build.allocate_frame c.host stem extension w
    refine ⟨[], [], .idle ?_ ?_ (Build.stays_allocate c.host stem extension w) ?_⟩
    · rw [hframe]
    · rw [hframe]
    · rw [hframe]
      exact hids
  call := fun hcall => c.traced_hostRun (hasks _ hcall)

end Compiler

/-! ## Whole runs -/

namespace Builder

variable {b : Builder} {r : Request}

/-- Only a compilation compiles. -/
theorem MayLink.compiles_eq_false {layout : Toolchain} {tools : ToolPaths} {c : Call}
    (h : b.MayLink r layout tools c) : c.compiles = false := by
  cases h <;> rfl

/-- The work on a request is traced back to the compilations of one compiler. -/
theorem Worked.traced {w v : World} {tools : ToolPaths} {answer : Except Failure (List Path)}
    (h : b.Worked r w tools answer v) : ∃ exceptions bridging us made,
      (b.compilerFor r (r.layout b.toolchain) tools exceptions bridging).Traced (b.begun r w)
        (failure? answer) v us made := by
  let L : List String → List String → Law := fun exceptions bridging =>
    (b.compilerFor r (r.layout b.toolchain) tools exceptions bridging).traced
  obtain ⟨exceptions, bridging, htraced⟩ := Law.Covers.buildArtifacts (L := L)
    (fun exceptions bridging =>
      (b.compilerFor r (r.layout b.toolchain) tools exceptions bridging).covers_traced
        fun _ => MayLink.compiles_eq_false)
    (fun exceptions bridging source output w => by
      obtain ⟨us, made, htraced, -⟩ := (b.compilerFor r (r.layout b.toolchain) tools exceptions
        bridging).compile_traced source output w
      exact ⟨us, made, htraced⟩) (b.begun r w)
  rw [h.work] at htraced
  exact ⟨exceptions, bridging, htraced⟩

/-- The calls for compilations that a run makes are those of these compilations,
    and their names and their files are new. -/
structure CompiledApart (b : Builder) (r : Request) (w v : World) (us : List Compilation)
    (made : List Exchange) : Prop where
  exchanges : v.exchanges = w.exchanges ++ made
  traces : us = [] ∧ compileCalls made = [] ∨ ∃ tools exceptions bridging,
    (b.compilerFor r (r.layout b.toolchain) tools exceptions bridging).Traces us (compileCalls made)
  drawn : (us.map (·.entryPoint.symbol)).Nodup
  handedOut : us.flatMap Compilation.files = [] ∨ ∃ c d all, b.cleaning? r w = some c ∧
    c.scratch.directory = some d ∧ (us.flatMap Compilation.files).Subperm all ∧
    Numbered b.host d w.scratchIds v.scratchIds all

theorem CompiledApart.none (b : Builder) (r : Request) {w v : World}
    (hexchanges : v.exchanges = w.exchanges) : b.CompiledApart r w v [] [] where
  exchanges := by rw [hexchanges, List.append_nil]
  traces := .inl ⟨rfl, rfl⟩
  drawn := List.nodup_nil
  handedOut := .inl rfl

theorem Worked.compiledApart {w u v : World} {tools : ToolPaths}
    {answer : Except Failure (List Path)} (h : b.Worked r w tools answer u)
    (hexchanges : v.exchanges = u.exchanges) (hids : v.scratchIds = u.scratchIds) :
    ∃ us made, b.CompiledApart r w v us made := by
  obtain ⟨exceptions, bridging, us, made, htraced⟩ := h.traced
  refine ⟨us, made, hexchanges.trans htraced.exchanges,
    .inr ⟨tools, exceptions, bridging, htraced.traces⟩, htraced.drawn.nodup, ?_⟩
  by_cases hnone : us.flatMap Compilation.files = []
  · exact .inl hnone
  · obtain ⟨d, hd⟩ := Option.ne_none_iff_exists'.mp (htraced.furnishes.made hnone)
    obtain ⟨all, hall, hnumbered⟩ := htraced.furnishes.numbered d fun d' hd' =>
      Option.some.inj (hd'.symm.trans hd)
    refine .inr ⟨u.noting answer, d, all, h.cleaning, ?_, hall, ?_⟩
    · rw [World.scratch_noting]
      exact hd
    · rw [hids]
      exact hnumbered

theorem compiledApart_run (b : Builder) (r : Request) (w : World) :
    ∃ us made, b.CompiledApart r w ((b.run r).run w).2 us made := by
  have hran := b.ran r w
  generalize (b.run r).run w = outcome at hran ⊢
  cases hran with
  | refused => exact ⟨[], [], .none b r rfl⟩
  | unequipped => exact ⟨[], [], .none b r rfl⟩
  | failed files hworked =>
      exact hworked.compiledApart (World.exchanges_noting _ _) (World.scratchIds_noting _ _)
  | stuck f files hworked =>
      exact hworked.compiledApart (World.exchanges_noting _ _) (World.scratchIds_noting _ _)
  | built files hworked => exact hworked.compiledApart rfl rfl

end Builder

/-- **Compilations do not mix.**  A compilation that answers, or has got to its
    merge, has made the calls of one compilation, however work done side by side gets
    its turns: for each architecture the front end writes the bitcode that the back
    end reads, the back end the assembly that the C compiler reads, and that one the
    object that is merged, one for each architecture in their order.  In a whole run
    all calls that compile are those of its compilations, one after the other; and if
    the identifiers of scratch files are different, then all the files that these
    compilations hand on are different ones in the scratch directory of the session.
    The entry points are different in any case. -/
theorem run_compilations_apart :
    (∀ (c : Compiler) (source : Path) (output : Option Path) (w : World), ∃ made,
      ((c.compile source output).run w).2.exchanges = w.exchanges ++ made ∧
      ((∃ x ∈ made, x.call.stage = .merge) ∨
          (∃ unit, ((c.compile source output).run w).1 = .ok unit) →
        ∃ u, c.Performed source output ((c.compile source output).run w).1 made u)) ∧
    ∀ (b : Builder) (r : Request) (w : World),
      (∀ n, ∀ c ∈ (b.host.scratchId n).toList, c.isAlphanum = true) →
      (∀ m n, w.scratchIds < m → m < n → n ≤ ((b.run r).run w).2.scratchIds →
        b.host.scratchId m ≠ b.host.scratchId n) →
      ∃ us made, ((b.run r).run w).2.exchanges = w.exchanges ++ made ∧
        (us = [] ∧ compileCalls made = [] ∨ ∃ tools exceptions bridging,
          (b.compilerFor r (r.layout b.toolchain) tools exceptions bridging).Traces us
            (compileCalls made)) ∧
        (us.flatMap Compilation.files).Nodup ∧
        (us.flatMap Compilation.files = [] ∨ ∃ c d, b.cleaning? r w = some c ∧
          c.scratch.directory = some d ∧ ∀ f ∈ us.flatMap Compilation.files, d.IsScratch f) ∧
        (us.map (·.entryPoint.symbol)).Nodup := by
  refine ⟨Compiler.compile_performed, fun b r w hids hdistinct => ?_⟩
  obtain ⟨us, made, h⟩ := b.compiledApart_run r w
  rcases h.handedOut with hnone | ⟨c, d, all, hcleaning, hd, hall, hnumbered⟩
  · exact ⟨us, made, h.exchanges, h.traces, hnone ▸ List.nodup_nil, .inl hnone, h.drawn⟩
  · obtain ⟨l, hperm, hsub⟩ := hall
    have hnodup := hperm.nodup_iff.mp ((hnumbered.nodup hids hdistinct).sublist hsub)
    exact ⟨us, made, h.exchanges, h.traces, hnodup,
      .inr ⟨c, d, hcleaning, hd, fun f hf => hnumbered.isScratch hids f
        (hsub.subset (hperm.mem_iff.mpr hf))⟩, h.drawn⟩

/-- A compiler for two architectures, whose tools all report success and whose two
    workers step by turns. -/
def fatCompiler : Compiler where
  host := { idleBuilder.host with turns := fun _ => crossingTurns }
  tools := ⟨.ofString "macruby", .ofString "llc", .ofString "clang", .ofString "lipo",
    .ofString "nm", .ofString "strip"⟩
  archs := [.i386, .x86_64]
  jobs := 2

/-- A source that is compiled for two architectures gets to its merge, and a source
    that is given twice is compiled into different files. -/
theorem run_compilations_apart_mixed :
    (∃ (made : List Exchange) (u : Compilation),
      ((fatCompiler.compile (.ofString "a.rb") none).run mixedWorld).2.exchanges
        = mixedWorld.exchanges ++ made ∧
      made.map (·.call.stage) = [.frontend, .frontend, .backend, .backend, .assemble, .assemble,
        .merge] ∧ fatCompiler.Calls u (made.map (·.call))) ∧
    ∃ us made, ((idleBuilder.run mixedRequest).run mixedWorld).2.exchanges
        = mixedWorld.exchanges ++ made ∧ us ≠ [] ∧ (us.flatMap Compilation.files).Nodup ∧
      (us.map (·.entryPoint.symbol)).Nodup := by
  obtain ⟨hcompile, hrun⟩ := run_compilations_apart
  constructor
  · have hstages : ((fatCompiler.compile (.ofString "a.rb") none).run mixedWorld).2.exchanges.map
        (·.call.stage) = [.frontend, .frontend, .backend, .backend, .assemble, .assemble,
          .merge] := by
      decide +kernel
    obtain ⟨made, hmade, hmerge⟩ := hcompile fatCompiler (.ofString "a.rb") none mixedWorld
    have hall : made.map (·.call.stage) = _ := hmade ▸ hstages
    have hmerged : Stage.merge ∈ made.map (·.call.stage) := by
      rw [hall]
      decide
    obtain ⟨x, hin, hstage⟩ := List.mem_map.mp hmerged
    obtain ⟨u, hperformed⟩ := hmerge (.inl ⟨x, hin, hstage⟩)
    exact ⟨made, u, hmade, hall, hperformed.calls⟩
  · have hdigits : ∀ n, ∀ c ∈ (idleBuilder.host.scratchId n).toList, c.isAlphanum = true :=
      Text.isAlphanum_of_mem_hex 12
    have hdistinct : ∀ m n, m < n → idleBuilder.host.scratchId m ≠ idleBuilder.host.scratchId n :=
      fun m n hlt heq => absurd (Text.upperCase_hex_injective 12 (congrArg Text.upperCase heq))
        (Nat.ne_of_lt hlt)
    have hcompiled : ((idleBuilder.run mixedRequest).run mixedWorld).2.exchanges.any
        (·.call.compiles) = true := by
      decide +kernel
    obtain ⟨us, made, hmade, htraces, hfiles, -, hdrawn⟩ := hrun idleBuilder mixedRequest mixedWorld
      hdigits fun m n _ hlt _ => hdistinct m n hlt
    refine ⟨us, made, hmade, ?_, hfiles, hdrawn⟩
    rintro rfl
    obtain ⟨x, hin, hcompiles⟩ := List.any_eq_true.mp hcompiled
    rw [hmade] at hin
    have hcall : x.call ∈ compileCalls made :=
      List.mem_filter.mpr ⟨List.mem_map_of_mem hin, hcompiles⟩
    generalize compileCalls made = cs at htraces hcall
    rcases htraces with ⟨-, rfl⟩ | ⟨tools, exceptions, bridging, htraces⟩
    · exact nomatch hcall
    · cases htraces with
      | nil => exact nomatch hcall

end AheadOfTime
