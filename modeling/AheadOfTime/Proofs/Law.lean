import AheadOfTime.Proofs.Wiring

/-! # Laws of a build

    A law says what may lie between the world a step starts in and the world it
    leaves, by the failure that the step ends with, if it ends with one.  A law
    that can be read step by step, and that the elementary steps meet, is met by
    the work on every request: `Law.Bears` lists what has to be shown of a law for
    all that follows the look into the ready-made objects, `Law.Covers` what has to
    be shown of it for that look as well, and `Law.Covers.buildArtifacts` goes
    through a build once for all such laws.

    Which calls are elementary steps of which build is said by `MayCall`, so a
    law may say of all calls what is so of these. -/

namespace AheadOfTime

variable {α β : Type}

/-- What may lie between the world a step starts in and the one it leaves, when
    it ends with a failure or with none. -/
abbrev Law := World → Option Failure → World → Prop

/-- The step does, in every world, what the law allows. -/
def Build.Meets (act : Build α) (L : Law) : Prop :=
  ∀ w, L w (failure? (act.run w).1) (act.run w).2

/-- What is known of an outcome, by the law. -/
theorem Build.Meets.of_run {act : Build α} {L : Law} (h : act.Meets L) {w v : World}
    {answer : Except Failure α} (hrun : act.run w = (answer, v)) : L w (failure? answer) v := by
  have hlaw := h w
  rw [hrun] at hlaw
  exact hlaw

/-- The law can be read step by step. -/
structure Law.Composes (L : Law) : Prop where
  idle (w : World) : L w none w
  next {u v w : World} {o : Option Failure} : L u none v → L v o w → L u o w

namespace Law.Composes

variable {L : Law}

theorem pure (h : L.Composes) (a : α) : (Pure.pure a : Build α).Meets L := h.idle

/-- **One step behind the other**: what both may do, the two may do together. -/
theorem bind (h : L.Composes) {x : Build α} {f : α → Build β} (hx : x.Meets L)
    (hf : ∀ a, (∃ w v, x.run w = (.ok a, v)) → (f a).Meets L) : (x >>= f).Meets L := by
  intro w
  rcases hrun : x.run w with ⟨e | a, v⟩
  · rw [run_bind_error hrun]
    exact hx.of_run hrun
  · rw [run_bind_ok hrun]
    exact h.next (hx.of_run hrun) (hf a ⟨w, v, hrun⟩ v)

/-- Taking note of an answer adds nothing. -/
theorem map (h : L.Composes) {x : Build α} (hx : x.Meets L) (f : α → β) :
    (x >>= fun a => Pure.pure (f a)).Meets L :=
  h.bind hx fun a _ => h.pure (f a)

end Law.Composes

/-! ## What has to be shown of a law -/

/-- The elementary steps that follow the look into the ready-made objects meet the
    law, the calls as far as `asks` goes.  The files do not matter to it, nor
    whether a fault takes the place of another failure. -/
structure Law.Bears (L : Law) (host : Host) (asks : Call → Prop) : Prop extends L.Composes where
  disk {u v : World} {o : Option Failure} (files : FileTree) : L u o v → L u o { v with files }
  overrule {u v : World} {e : Failure} (f : Fault) : L u (some e) v → L u (some (.fault f)) v
  plain (w : World) {e : Failure} : e.IsPlain → L w (some e) w
  warn (n : Notice) : (Build.warn n).Meets L
  allocate (stem extension : String) : (Build.allocate host stem extension).Meets L
  call {c : Call} : asks c → (host.run c).Meets L

namespace Law.Bears

variable {L : Law} {host : Host} {asks : Call → Prop}

/-- A law that bears some calls bears any of them. -/
theorem mono (h : L.Bears host asks) {fewer : Call → Prop} (hfewer : ∀ c, fewer c → asks c) :
    L.Bears host fewer :=
  { h with call := fun hc => h.call (hfewer _ hc) }

/-- A complaint about a request is allowed for. -/
theorem complain (h : L.Bears host asks) {p : Problem} (hp : (Failure.problem p).IsPlain) :
    (Build.complain p : Build α).Meets L := fun w => h.plain w hp

/-- What is done on the disk is allowed for. -/
theorem onDisk (h : L.Bears host asks) (act : Disk α) : (Build.onDisk act).Meets L := by
  intro w
  rw [Build.run_onDisk]
  rcases act.run w.files with ⟨fault | a, files⟩
  · exact h.disk files (h.plain w (Failure.isPlain_fault fault))
  · exact h.disk files (h.idle w)

/-- What the system answers is allowed for. -/
theorem ofFallible (h : L.Bears host asks) (result : Except Fault α) :
    (Build.ofFallible result).Meets L := by
  intro w
  rw [Build.run_ofFallible]
  cases result with
  | error fault => exact h.plain w (Failure.isPlain_fault fault)
  | ok a => exact h.idle w

/-- A check meets the law if its problem does. -/
theorem ofChecked (h : L.Bears host asks) {result : Except Problem α}
    (hresult : ∀ p, result = .error p → ∀ w, L w (some (.problem p)) w) :
    (Build.ofChecked result).Meets L := by
  intro w
  rw [Build.run_ofChecked]
  cases result with
  | error p => exact hresult p rfl w
  | ok a => exact h.idle w

end Law.Bears

/-- The elementary steps of a build meet the law, the calls as far as `asks` goes.
    The files do not matter to it, nor whether a fault takes the place of another
    failure. -/
structure Law.Covers (L : Law) (host : Host) (asks : Call → Prop) : Prop extends L.Composes where
  disk {u v : World} {o : Option Failure} (files : FileTree) : L u o v → L u o { v with files }
  overrule {u v : World} {e : Failure} (f : Fault) : L u (some e) v → L u (some (.fault f)) v
  stop (w : World) {e : Failure} : ¬ e.IsOfTool → L w (some e) w
  warn (n : Notice) : (Build.warn n).Meets L
  passThrough (input : Path) : (Build.log (Request.passThroughRecord input)).Meets L
  allocate (stem extension : String) : (Build.allocate host stem extension).Meets L
  call {c : Call} : asks c → (host.run c).Meets L

namespace Law.Covers

variable {L : Law} {host : Host} {asks : Call → Prop}

/-- A law that covers some calls covers any of them. -/
theorem mono (h : L.Covers host asks) {fewer : Call → Prop} (hfewer : ∀ c, fewer c → asks c) :
    L.Covers host fewer :=
  { h with call := fun hc => h.call (hfewer _ hc) }

theorem bears (h : L.Covers host asks) : L.Bears host asks :=
  { h with plain := fun w _ he => h.stop w he.not_isOfTool }

end Law.Covers

/-- Drawing an entry point changes what is drawn next, and never fails as a tool. -/
theorem EntryPoint.run_generate (w : World) : generate.run w
    = ((ofSymbol w.draws.next.1).mapError Failure.problem, { w with draws := w.draws.next.2 }) := by
  unfold generate
  rw [run_bind_ok (run_get w)]
  dsimp only
  rw [run_bind_ok (run_set _ w), Build.run_ofChecked]

/-- A symbol that is no identifier is a problem of its own. -/
theorem EntryPoint.isPlain_of_ofSymbol {symbol : String} {p : Problem}
    (h : ofSymbol symbol = .error p) : (Failure.problem p).IsPlain := by
  unfold ofSymbol at h
  split at h
  · exact nomatch h
  · rw [← Except.error.inj h]
    exact ⟨nofun, nofun⟩

/-- An entry point is read from its own symbol. -/
theorem EntryPoint.symbol_eq_of_ofSymbol {symbol : String} {e : EntryPoint}
    (h : ofSymbol symbol = .ok e) : e.symbol = symbol := by
  unfold ofSymbol at h
  split at h
  · rw [← Except.ok.inj h]
  · exact nomatch h

/-! ## The calls of a build -/

/-- What a request lets a build make: what it asks for, or else a place beside
    an input for what is made of that input. -/
inductive Request.Output (r : Request) (t : Toolchain) : Path → Prop where
  | given {p : Path} : r.output = some p → Output r t p
  | object {input p : Path} : r.kind = .object → r.output = none → input ∈ r.inputs →
      input.withExtension t.objectExtension = .ok p → Output r t p
  | bundle {input p : Path} : r.kind = .bundle → r.output = none → input ∈ r.inputs →
      input.withExtension t.bundleExtension = .ok p → Output r t p
  | executable {first p : Path} : r.kind = .executable → r.output = none →
      r.inputs.head? = some first → first.withExtension "" = .ok p → Output r t p

/-- The calls that compile sources. -/
inductive Compiler.MayCall (c : Compiler) : Call → Prop where
  | frontend (source : Path) (arch : Arch) (e : EntryPoint) (bitcode : Path) :
      MayCall c (c.frontendCall source arch e bitcode)
  | backend (source : Path) (arch : Arch) (bitcode assembly : Path) :
      MayCall c (c.backendCall source arch bitcode assembly)
  | assemble (source : Path) (arch : Arch) (assembly object : Path) :
      MayCall c (c.assembleCall source arch assembly object)
  | merge (objects : List Path) (output : Path) (input : Option String) :
      MayCall c (Host.mergeCall c.tools.lipo objects output input)

/-- The call that asks the back end for its options. -/
def Host.probeCall (backend : Path) : Call where
  stage := .probe
  argv := [backend.toString, "-help"]
  isChecked := false

namespace Builder

/-- The place of an executable is an output of the request. -/
theorem output_of_executableOutput {r : Request} {layout : Toolchain} (hkind : r.kind = .executable)
    {p : Path} {w v : World}
    (h : (executableOutput r).run w = (.ok p, v)) : r.Output layout p := by
  unfold executableOutput at h
  rcases houtput : r.output with _ | output
  · rcases hinputs : r.inputs with _ | ⟨first, later⟩
    · rw [houtput, hinputs] at h
      exact absurd h error_ne_ok
    · rw [houtput, hinputs] at h
      have hfirst : r.inputs.head? = some first := by rw [hinputs, List.head?_cons]
      exact .executable hkind houtput hfirst (Build.run_ofFallible_eq_ok h).1
  · rw [houtput] at h
    rw [← (run_pure_eq_ok h).1]
    exact .given houtput

/-- The calls of a build that are not made for a compilation: nothing is linked
    or stripped but the outputs of the request. -/
inductive MayLink (b : Builder) (r : Request) (layout : Toolchain) (tools : ToolPaths) :
    Call → Prop where
  | symbols (object : Path) : MayLink b r layout tools (Host.symbolsCall tools.nm object)
  | probe : MayLink b r layout tools (Host.probeCall tools.backend)
  | glue (name : String) (source object : Path) :
      MayLink b r layout tools ((b.linkerFor r layout tools).glueCall name source object)
  | link {output : Path} (objects : List Path) (modeFlags libraries extraFlags : List String) :
      r.Output layout output → MayLink b r layout tools
        ((b.linkerFor r layout tools).linkCall output objects modeFlags libraries extraFlags)
  | strip {output : Path} (flags : List String) : r.Output layout output →
      MayLink b r layout tools ((b.linkerFor r layout tools).stripCall output flags)

/-- The calls that may follow the look into the ready-made objects. -/
def MayFollow (b : Builder) (r : Request) (layout : Toolchain) (tools : ToolPaths) (c : Call) :
    Prop :=
  b.MayLink r layout tools c ∧ c.stage ≠ .symbols

/-- The calls of a build. -/
inductive MayCall (b : Builder) (r : Request) (layout : Toolchain) (tools : ToolPaths) :
    Call → Prop where
  | compiling (exceptions bridging : List String) {c : Call} :
      (b.compilerFor r layout tools exceptions bridging).MayCall c → MayCall b r layout tools c
  | linking {c : Call} : b.MayLink r layout tools c → MayCall b r layout tools c

/-- Every call of a build is checked, but for the question to the back end. -/
theorem MayCall.isChecked_iff {b : Builder} {r : Request} {layout : Toolchain}
    {tools : ToolPaths} {c : Call} (h : b.MayCall r layout tools c) :
    c.isChecked = true ↔ c.stage ≠ .probe := by
  cases h with
  | compiling exceptions bridging h => cases h <;> exact iff_of_true rfl nofun
  | linking h =>
      cases h with
      | probe => exact iff_of_false nofun (not_not_intro rfl)
      | _ => exact iff_of_true rfl nofun

end Builder

/-! ## Compiling -/

namespace Law.Bears

variable {L : Law}

/-- To read an entry point is allowed for. -/
theorem entryPointOfSymbol {host : Host} {asks : Call → Prop} (h : L.Bears host asks)
    (symbol : String) : (Build.ofChecked (EntryPoint.ofSymbol symbol)).Meets L :=
  h.ofChecked fun _ hp w => h.plain w (EntryPoint.isPlain_of_ofSymbol hp)

section

variable {c : Compiler}

/-- A merge meets the law, if its call is one that may be made. -/
theorem mergeObjects (h : L.Bears c.host c.MayCall) (objects : List Path) (output : Path)
    (input : Option String) :
    (c.host.mergeObjects c.tools.lipo objects output input).Meets L := by
  have hmerge : (c.host.run (Host.mergeCall c.tools.lipo objects output input)).Meets L :=
    h.call (.merge objects output input)
  unfold Host.mergeObjects
  by_cases hnone : objects = []
  · rw [if_pos hnone]
    exact h.bind (h.complain ⟨nofun, nofun⟩) fun _ _ => h.bind (h.onDisk _)
      fun _ _ => h.map hmerge _
  · rw [if_neg hnone]
    exact h.bind (h.onDisk _) fun _ _ => h.map hmerge _

/-- A draw of an entry point meets a law that has no say about draws. -/
theorem generate {host : Host} {asks : Call → Prop} (h : L.Bears host asks)
    (hdraws : ∀ w draws, L w none { w with draws }) : EntryPoint.generate.Meets L := by
  intro w
  rw [EntryPoint.run_generate]
  rcases hsymbol : EntryPoint.ofSymbol w.draws.next.1 with p | e
  · exact h.next (hdraws w _) (h.plain _ (EntryPoint.isPlain_of_ofSymbol hsymbol))
  · exact hdraws w _

/-- **A compilation** meets a law that the work for its architectures meets, and that
    does not mind what is drawn next. -/
theorem compile (h : L.Bears c.host c.MayCall) (hdraws : ∀ w draws, L w none { w with draws })
    (hall : ∀ source e, (c.compileAll source e).Meets L) (source : Path) (output : Option Path) :
    (c.compile source output).Meets L := by
  unfold Compiler.compile
  refine h.bind (h.generate hdraws) fun e _ => ?_
  have hrest : ∀ destination, Build.Meets (do
      let objects ← c.compileAll source e
      let _ ← c.host.mergeObjects c.tools.lipo objects destination (some source.toString)
      return (⟨source, destination, e⟩ : CompiledUnit)) L := fun destination =>
    h.bind (hall source e) fun objects _ => h.map (h.mergeObjects objects destination _) _
  cases output with
  | some output => exact hrest output
  | none => exact h.bind (h.ofFallible _) fun destination _ => hrest destination

end

/-! ## Linking -/

section

variable {k : Linker} {asks : Call → Prop}

/-- The glue meets the law, if its call is one that may be made. -/
theorem compileGlue (h : L.Bears k.host asks)
    (hglue : ∀ name source object, asks (k.glueCall name source object)) (text name : String) :
    (k.compileGlue text name).Meets L := by
  unfold Linker.compileGlue
  refine h.bind (h.allocate _ _) fun source _ => ?_
  refine h.bind (h.onDisk _) fun _ _ => ?_
  refine h.bind (h.allocate _ _) fun object _ => ?_
  exact h.map (h.call (hglue name source object)) _

/-- The output of a strip that failed is removed, which only a fault may prevent. -/
theorem strip (h : L.Bears k.host asks) {output : Path} {flags : List String}
    (hstrip : asks (k.stripCall output flags)) : (k.strip output flags).Meets L := by
  intro w
  have hcall := h.call hstrip w
  rw [Linker.run_strip]
  rcases hrun : (k.host.run (k.stripCall output flags)).run w with ⟨e | result, v⟩
  · rw [hrun] at hcall
    -- only a failure that the tool reports has the output removed
    by_cases htool : e.IsOfTool
    · obtain ⟨tool, stage, input, arch, exit, rfl⟩ := e.isOfTool_iff.mp htool
      dsimp only
      rw [Build.run_onDisk]
      rcases (Disk.removeIfPresent output).run v.files with ⟨fault | _, files⟩
      · exact h.disk files (h.overrule fault hcall)
      · exact h.disk files hcall
    · cases e with
      | fault f => exact hcall
      | problem p =>
          cases p with
          | toolFailed => exact absurd rfl htool
          | _ => exact hcall
  · rw [hrun] at hcall
    exact hcall

/-- The three calls that make an output meet the law, if they may be made for it. -/
structure Finishes (k : Linker) (asks : Call → Prop) (output : Path) : Prop where
  glue (name : String) (source object : Path) : asks (k.glueCall name source object)
  link (objects : List Path) (modeFlags libraries extraFlags : List String) :
    asks (k.linkCall output objects modeFlags libraries extraFlags)
  strip (flags : List String) : asks (k.stripCall output flags)

/-- **What finishes an output** meets the law, if its calls are those that may be made. -/
theorem finish (h : L.Bears k.host asks) {output : Path} (hasks : Finishes k asks output)
    (text name : String) (objects : Path → List Path)
    (modeFlags libraries extraFlags stripFlags : List String) : Build.Meets (do
      let glueObject ← k.compileGlue text name
      k.link output (objects glueObject) modeFlags libraries extraFlags
      k.strip output stripFlags) L := by
  refine h.bind (h.compileGlue hasks.glue text name) fun glueObject _ => ?_
  have hlink : (k.link output (objects glueObject) modeFlags libraries extraFlags).Meets L :=
    h.bind (h.onDisk _) fun _ _ => h.map (h.call (hasks.link _ _ _ _)) fun _ => PUnit.unit
  exact h.bind hlink fun _ _ => h.strip (hasks.strip stripFlags)

/-- A bundle meets the law, if it may be finished. -/
theorem bundle (h : L.Bears k.host asks) (unit : CompiledUnit) {output : Path}
    (hasks : Finishes k asks output) : (k.bundle unit output).Meets L := by
  refine h.bind (h.ofChecked fun p hp w => h.plain w ?_) fun glue _ =>
    h.finish hasks _ _ (fun glueObject => [glueObject, unit.path]) _ _ _ _
  unfold Glue.ofBundle at hp
  split at hp
  · rw [← Except.error.inj hp]
    exact ⟨nofun, nofun⟩
  · exact nomatch hp

/-- A library meets the law, if its output may be finished. -/
theorem dylib (h : L.Bears k.host asks) (inputs : List LinkInput) {output : Option Path}
    (hasks : ∀ p, output = some p → Finishes k asks p) (linkerFlags : List String) :
    (k.dylib inputs output linkerFlags).Meets L := by
  cases output with
  | none => exact h.complain ⟨nofun, nofun⟩
  | some output =>
      exact h.finish (hasks output rfl) _ _
        (fun glueObject => glueObject :: inputs.map LinkInput.path) _ _ _ _

/-- An executable meets the law, if the lack of a program body does or there is
    one. -/
theorem executable (h : L.Bears k.host asks) {inputs : List LinkInput} {output : Path}
    (hbody : ∀ p, Glue.ofExecutable inputs = .error p → ∀ w, L w (some (.problem p)) w)
    (hasks : Finishes k asks output) (static : Bool) (frameworks linkerFlags : List String) :
    (k.executable inputs output static frameworks linkerFlags).Meets L :=
  h.bind (h.ofChecked hbody) fun _ _ =>
    h.finish hasks _ _ (fun glueObject => glueObject :: inputs.map LinkInput.path) _ _ _ _

end

/-! ## What follows the look into the ready-made objects -/

section

variable {b : Builder} {r : Request} {layout : Toolchain} {tools : ToolPaths} {c : Compiler}

/-- To read a listing meets the law. -/
theorem entryPoint? {host : Host} {asks : Call → Prop} (h : L.Bears host asks)
    (listing : String) (source : Option Path) :
    (SymbolListing.entryPoint? listing source).Meets L := by
  unfold SymbolListing.entryPoint?
  split
  · exact h.pure none
  · rw [map_eq_pure_bind]
    exact h.map (h.entryPointOfSymbol _) _
  · rw [map_eq_pure_bind]
    exact h.bind (h.warn _) fun _ _ => h.map (h.entryPointOfSymbol _) _

/-- The flags for exceptions meet the law, if the probe may be called. -/
theorem exceptionFlags (h : L.Bears b.host (b.MayFollow r layout tools)) :
    (b.exceptionFlags r layout tools).Meets L := by
  unfold Builder.exceptionFlags
  split
  · exact h.map (h.call ⟨.probe, nofun⟩) fun result => AheadOfTime.exceptionFlags result.output
  · exact h.pure []

/-- A look for the metadata of frameworks meets the law. -/
theorem frameworkFlags {host : Host} {asks : Call → Prop} (h : L.Bears host asks)
    (t : Toolchain) (frameworks : List String) : (t.bridgingFlags frameworks).Meets L := by
  induction frameworks with
  | nil => exact h.pure []
  | cons framework later ih =>
      refine h.bind h.idle fun w _ => h.bind (h.ofFallible _) fun isThere _ => ?_
      by_cases hthere : isThere = true
      · rw [if_pos hthere]
        exact h.map ih _
      · rw [if_neg hthere]
        exact h.bind (h.warn _) fun _ _ => ih

theorem bridgingFlags {host : Host} {asks : Call → Prop} (h : L.Bears host asks) (r : Request)
    (layout : Toolchain) : (Builder.bridgingFlags r layout).Meets L := by
  unfold Builder.bridgingFlags
  split
  · exact h.frameworkFlags layout r.frameworks
  · exact h.pure []

theorem executableOutput {host : Host} {asks : Call → Prop} (h : L.Bears host asks)
    (r : Request) : (Builder.executableOutput r).Meets L := by
  unfold Builder.executableOutput
  split
  · exact h.pure _
  · exact h.ofFallible _
  · exact h.complain ⟨nofun, nofun⟩

/-- The outputs of a request may be finished. -/
theorem finishes {output : Path} (houtput : r.Output layout output) :
    Finishes (b.linkerFor r layout tools) (b.MayFollow r layout tools) output :=
  ⟨fun _ _ _ => ⟨.glue _ _ _, nofun⟩, fun _ _ _ _ => ⟨.link _ _ _ _ houtput, nofun⟩,
    fun _ => ⟨.strip _ houtput, nofun⟩⟩

/-- The inputs of a link meet the law, if every compilation does. -/
theorem linkInputs {asks : Call → Prop} (h : L.Bears b.host asks)
    (hcompile : ∀ source output, (c.compile source output).Meets L) (prebuilt : Prebuilt)
    (inputs : List Path) : (b.linkInputs layout c prebuilt inputs).Meets L := by
  induction inputs with
  | nil => exact h.pure []
  | cons input later ih =>
      unfold Builder.linkInputs
      split
      · simp only [map_eq_pure_bind, bind_assoc, pure_bind]
        exact h.bind (h.allocate _ _) fun object _ =>
          h.bind (hcompile input (some object)) fun unit _ => h.map ih _
      · simp only [pure_bind]
        exact h.map ih _

/-- **An object request** meets the law, if every compilation does. -/
theorem buildObjects (h : L.Composes)
    (hcompile : ∀ source output, (c.compile source output).Meets L)
    (output : Option Path) (inputs : List Path) :
    (Builder.buildObjects c output inputs).Meets L := by
  induction inputs with
  | nil => exact h.pure []
  | cons input later ih => exact h.bind (hcompile input output) fun unit _ => h.map ih _

/-- **A bundle request** meets the law, if every compilation does. -/
theorem buildBundles (h : L.Bears b.host (b.MayFollow r layout tools)) (hc : c.host = b.host)
    (hcompile : ∀ source output, (c.compile source output).Meets L) (hkind : r.kind = .bundle)
    {inputs : List Path} (hinputs : inputs ⊆ r.inputs) :
    (Builder.buildBundles layout c (b.linkerFor r layout tools) r.output inputs).Meets L := by
  induction inputs with
  | nil => exact h.pure []
  | cons input later ih =>
      have hlater := ih fun other hin => hinputs (List.mem_cons_of_mem _ hin)
      -- wherever the bundle goes, the rest is the same
      have hbundle : ∀ unit {p : Path}, r.Output layout p → Build.Meets (do
          let artifact ← (b.linkerFor r layout tools).bundle unit p
          return artifact :: (← Builder.buildBundles layout c (b.linkerFor r layout tools)
            r.output later)) L := fun unit p hp =>
        h.bind (Law.Bears.bundle (k := b.linkerFor r layout tools) h unit (finishes hp))
          fun artifact _ => h.map hlater _
      unfold Builder.buildBundles
      rw [hc]
      refine h.bind (h.allocate _ _) fun object _ => h.bind (hcompile _ _) fun unit _ => ?_
      rcases houtput : r.output with _ | output
      · rw [houtput] at hbundle
        refine h.bind (h.ofFallible _) fun p hp => hbundle unit ?_
        obtain ⟨_, _, hp⟩ := hp
        exact .bundle hkind houtput (hinputs List.mem_cons_self) (Build.run_ofFallible_eq_ok hp).1
      · rw [houtput] at hbundle
        exact hbundle unit (.given houtput)

/-- What is left of a build when its compiler is known meets the law, if every
    compilation does, and the lack of a program body too if it can still turn up. -/
theorem produce (h : L.Bears b.host (b.MayFollow r layout tools)) (hc : c.host = b.host)
    (hcompile : ∀ source output, (c.compile source output).Meets L) {prebuilt : Prebuilt}
    (hbody : r.kind = .executable → ∀ inputs,
      (∃ w v, (b.linkInputs layout c prebuilt r.inputs).run w = (.ok inputs, v)) →
      ∀ p, Glue.ofExecutable inputs = .error p → ∀ w, L w (some (.problem p)) w) :
    (b.produce r layout c (b.linkerFor r layout tools) prebuilt).Meets L := by
  have hinputs : (b.linkInputs layout c prebuilt r.inputs).Meets L :=
    h.linkInputs hcompile prebuilt r.inputs
  unfold Builder.produce
  cases hkind : r.kind with
  | object => exact buildObjects h.toComposes hcompile r.output r.inputs
  | bundle => exact h.buildBundles hc hcompile hkind (List.Subset.refl _)
  | dylib =>
      refine h.bind hinputs fun inputs _ => h.map ?_ _
      exact Law.Bears.dylib (k := b.linkerFor r layout tools) h inputs
        (fun p hp => finishes (.given hp)) _
  | executable =>
      -- a program may still lack its body when its inputs are all there
      refine h.bind hinputs fun inputs hrun => h.bind (h.executableOutput r) fun p hp => h.map ?_ _
      obtain ⟨_, _, hp⟩ := hp
      exact Law.Bears.executable (k := b.linkerFor r layout tools) h (hbody hkind inputs hrun)
        (finishes (Builder.output_of_executableOutput hkind hp)) _ _ _

end

end Law.Bears

/-! ## Whole builds -/

/-- A program body that is missing is no failure of a tool. -/
theorem Glue.not_isOfTool_of_ofExecutable {inputs : List LinkInput} {p : Problem}
    (h : ofExecutable inputs = .error p) : ¬ (Failure.problem p).IsOfTool := by
  unfold ofExecutable at h
  split at h
  · rw [← Except.error.inj h]
    exact nofun
  · split at h
    · rw [← Except.error.inj h]
      exact nofun
    · exact nomatch h

namespace Law.Covers

variable {L : Law} {b : Builder} {r : Request} {layout : Toolchain} {tools : ToolPaths}

/-- To settle an entry point meets the law. -/
theorem settleObject {host : Host} {asks : Call → Prop} (h : L.Covers host asks) (r : Request)
    (object : Path) (e : Option EntryPoint) : (Builder.settleObject r object e).Meets L := by
  cases e with
  | some e => exact h.pure ()
  | none =>
      rw [Builder.settleObject_none]
      split
      · exact fun w => h.stop w nofun
      · exact h.passThrough object

/-- A scan of the prebuilt inputs meets the law. -/
theorem scanPrebuilt (h : L.Covers b.host (b.MayLink r layout tools)) (inputs : List Path)
    (found : Prebuilt) : (b.scanPrebuilt r layout tools inputs found).Meets L := by
  induction inputs generalizing found with
  | nil => exact h.pure found
  | cons input later ih =>
      have hscan : (b.host.scanEntryPoint tools.nm input).Meets L :=
        h.bind (h.call (.symbols input)) fun result _ => h.bears.entryPoint? _ _
      rw [Builder.scanPrebuilt_cons]
      split
      · exact ih found
      · exact h.bind hscan fun e _ => h.bind (h.settleObject r input e) fun _ _ => ih _

/-- What is decided before the first source is compiled meets the law. -/
theorem readyMade (h : L.Covers b.host (b.MayLink r layout tools)) :
    (b.readyMade r layout tools).Meets L := by
  unfold Builder.readyMade
  split
  · exact h.pure []
  · exact h.scanPrebuilt r.inputs []

/-- What covers the links of a build bears what follows the look into the
    ready-made objects. -/
theorem follows (h : L.Covers b.host (b.MayLink r layout tools)) :
    L.Bears b.host (b.MayFollow r layout tools) :=
  h.bears.mono fun _ hc => hc.1

/-- **The work on a request** meets a law that covers its calls, if every
    compilation does.  The law may depend on the flags that the compiler gets,
    which the work itself finds out. -/
theorem buildArtifacts {L : List String → List String → Law}
    (h : ∀ exceptions bridging, (L exceptions bridging).Covers b.host (b.MayLink r layout tools))
    (hcompile : ∀ exceptions bridging source output,
      ((b.compilerFor r layout tools exceptions bridging).compile source output).Meets
        (L exceptions bridging)) (w : World) :
    ∃ exceptions bridging, L exceptions bridging w
      (failure? ((b.buildArtifacts r layout tools).run w).1)
      ((b.buildArtifacts r layout tools).run w).2 := by
  rw [Builder.buildArtifacts_eq]
  rcases hready : (b.readyMade r layout tools).run w with ⟨e | prebuilt, w₁⟩
  · -- the work stopped before the flags were known, so any will do
    rw [run_bind_error hready]
    exact ⟨[], [], (h [] []).readyMade.of_run hready⟩
  · rw [run_bind_ok hready]
    rcases hflags : (b.exceptionFlags r layout tools).run w₁ with ⟨e | exceptions, w₂⟩
    · rw [run_bind_error hflags]
      exact ⟨[], [], (h [] []).next ((h [] []).readyMade.of_run hready)
        ((h [] []).follows.exceptionFlags.of_run hflags)⟩
    · rw [run_bind_ok hflags]
      have hbegun : ∀ bridging, L exceptions bridging w none w₂ := fun bridging =>
        (h exceptions bridging).next ((h exceptions bridging).readyMade.of_run hready)
          ((h exceptions bridging).follows.exceptionFlags.of_run hflags)
      rcases hbridging : (Builder.bridgingFlags r layout).run w₂ with ⟨e | bridging, w₃⟩
      · rw [run_bind_error hbridging]
        exact ⟨exceptions, [], (h exceptions []).next (hbegun [])
          (((h exceptions []).bears.bridgingFlags r layout).of_run hbridging)⟩
      · rw [run_bind_ok hbridging]
        have hlaw := h exceptions bridging
        refine ⟨exceptions, bridging, hlaw.next (hlaw.next (hbegun bridging)
          ((hlaw.bears.bridgingFlags r layout).of_run hbridging)) ?_⟩
        exact hlaw.follows.produce rfl (hcompile exceptions bridging)
          (fun _ _ _ p hp w => hlaw.stop w (Glue.not_isOfTool_of_ofExecutable hp)) w₃

end Law.Covers

end AheadOfTime
