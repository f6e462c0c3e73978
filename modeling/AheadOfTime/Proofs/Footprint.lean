import AheadOfTime.Proofs.Site

/-! # What a build changes

    Every part of a build keeps to its site: from a world that is ready, it
    changes nothing outside the scratch directory that is not accounted for by
    what a tool did or by an output of the request.  `Builder.keeps_buildArtifacts`
    puts the parts together. -/

namespace AheadOfTime

open Site (Sound Keeps KeepsFrom)

variable {s : Site} {w : World}

/-! ## Compiling -/

/-- What any step of work that is done side by side may do: it stays in the session,
    and if the session fits the site, it changes only what it may. -/
def Site.Carries (host : Host) (s : Site) (w v : World) : Prop :=
  w.Stays v ∧ (v.WorksIn s.directory → s.Ready w → Site.Moved host s w v)

/-- To carry a site is a relation that arms may rely on. -/
theorem Site.Carries.lasting {host : Host} : Lasting (Site.Carries host s) where
  refl w := ⟨.refl w, fun _ hw => .refl hw⟩
  trans h h' := ⟨h.1.trans h'.1, fun hfits hw =>
    have hmoved := h.2 (hfits.earlier h'.1) hw
    hmoved.trans (h'.2 hfits hmoved.ready)⟩

/-- A scan for the entry point keeps to any site. -/
theorem keeps_scanEntryPoint {host : Host} (hsound : Sound host s) (nm object : Path) :
    Keeps host s (host.scanEntryPoint nm object) := by
  unfold Host.scanEntryPoint
  refine (Site.keeps_hostRun hsound _).bind fun result => ?_
  exact Site.keeps_of_still (SymbolListing.still_entryPoint? _ _)

/-- A probe keeps to any site. -/
theorem keeps_probeExceptionFlags {host : Host} (hsound : Sound host s) (backend : Path) :
    Keeps host s (host.probeExceptionFlags backend) := by
  unfold Host.probeExceptionFlags
  exact (Site.keeps_hostRun hsound _).bind fun result => Site.keeps_pure _

namespace Compiler

variable {c : Compiler}

/-- Every step of the work for an architecture stays in the session, and changes only
    what it may, whether the work goes on behind it or not. -/
theorem eachStep_carries (hsound : Sound c.host s) : c.EachStep (Site.Carries c.host s) where
  allocate := fun stem extension hin w =>
    ⟨Build.stays_allocate c.host stem extension w, fun hfits hw =>
      .allocate hsound hw ((by decide : ∀ e ∈ [".bc", ".s", ".o"], '/' ∉ e.toList) extension hin)
        hfits⟩
  call := fun call _ w => ⟨c.host.stays_call call w, fun _ hw => .call hsound hw call⟩
  conclude := fun call _ reply w =>
    ⟨.of_alike (call.still_conclude reply w),
      fun _ hw => .of_alike hw (call.still_conclude reply w)⟩

/-- All architectures of a source together carry the site, one by one or side by side. -/
theorem carries_compileAll (hsound : Sound c.host s) (source : Path) (e : EntryPoint) (w : World) :
    Site.Carries c.host s w ((c.compileAll source e).run w).2 := by
  refine lasts_compileAll Site.Carries.lasting (c.eachStep_carries hsound) (fun w => ?_) source e w
  obtain ⟨pools, hhired⟩ := c.hired_frame w
  rw [hhired]
  exact ⟨.of_same rfl rfl rfl rfl rfl, fun _ hw => .of_same hw rfl rfl rfl⟩

/-- So they keep to it. -/
theorem keeps_compileAll (hsound : Sound c.host s) (source : Path) (e : EntryPoint) :
    Keeps c.host s (c.compileAll source e) where
  stays := c.stays_compileAll source e
  keepsFrom := fun w hw => .of_moved fun hfits => (carries_compileAll hsound source e w).2 hfits hw

end Compiler

/-- A merge keeps to the site if the place of its output is given. -/
theorem keepsFrom_mergeObjects {host : Host} (hsound : Sound host s) (hw : s.Ready w)
    {output : Path} (hp : s.Given w output) (lipo : Path) (objects : List Path)
    (input : Option String) :
    KeepsFrom host s w (host.mergeObjects lipo objects output input) := by
  unfold Host.mergeObjects
  by_cases hnone : objects = []
  · rw [if_pos hnone]
    exact fun _ => (Site.Moved.refl hw).halted
  · rw [if_neg hnone]
    show KeepsFrom host s w (_ >>= fun _ => _ >>= fun _ => _)
    rw [← bind_assoc]
    exact (Site.keepsFrom_make hsound hw hp (by simp)).bind
      (fun _ _ _ => (Build.still_pure _).stays)
      fun _ v _ hmoved => (Site.keeps_pure output).keepsFrom v hmoved.ready

namespace Compiler

variable {c : Compiler}

/-- What a compilation does once its entry point and the place of its object are
    known. -/
def finishAt (c : Compiler) (source : Path) (e : EntryPoint) (destination : Path) :
    Build CompiledUnit := do
  let objects ← c.compileAll source e
  let _ ← c.host.mergeObjects c.tools.lipo objects destination (some source.toString)
  return ⟨source, destination, e⟩

/-- What is done to a source then stays in the session. -/
theorem stays_finishAt (c : Compiler) (source : Path) (e : EntryPoint) (destination : Path) :
    (c.finishAt source e destination).Stays :=
  (c.stays_compileAll source e).bind fun objects =>
    (c.stays_mergeObjects objects _ _).bind fun _ => (Build.still_pure _).stays

/-- It keeps to the site if the place of the object is given. -/
theorem keepsFrom_finishAt (hsound : Sound c.host s) (hw : s.Ready w) {destination : Path}
    (hp : s.Given w destination) (source : Path) (e : EntryPoint) :
    KeepsFrom c.host s w (c.finishAt source e destination) := by
  refine ((keeps_compileAll hsound source e).keepsFrom w hw).bind
    (fun objects _ _ => (c.stays_mergeObjects objects _ _).bind fun _ =>
      (Build.still_pure _).stays) fun objects v _ h => ?_
  exact (keepsFrom_mergeObjects hsound h.ready (hp.mono h.toExtends) _ _ _).bind
    (fun _ _ _ => (Build.still_pure _).stays) fun _ v' _ h' =>
      (Site.keeps_pure _).keepsFrom v' h'.ready

/-- **A compilation** keeps to the site if its output, or the place of its object,
    belongs there. -/
theorem keepsFrom_compile (hsound : Sound c.host s) (hw : s.Ready w) {source : Path}
    {output : Option Path} (hgiven : ∀ p, output = some p → s.Given w p)
    (hdefault : output = none → ∀ p, c.defaultOutput source = .ok p → s.IsOutput p) :
    KeepsFrom c.host s w (c.compile source output) := by
  have hgenerate : s.Keeps c.host EntryPoint.generate :=
    Site.keeps_of_still EntryPoint.still_generate
  unfold compile
  cases output with
  | some output =>
      refine (hgenerate.keepsFrom w hw).bind (fun e _ _ => c.stays_finishAt source e output)
        fun e v _ hmoved => ?_
      exact keepsFrom_finishAt hsound hmoved.ready ((hgiven output rfl).mono hmoved.toExtends)
        source e
  | none =>
      -- without an output, the place of the object is looked for first
      have hplace : s.Keeps c.host (Build.ofFallible (c.defaultOutput source)) :=
        Site.keeps_of_still (Build.still_ofFallible _)
      refine (hgenerate.keepsFrom w hw).bind
        (fun e _ _ => hplace.stays.bind fun p => c.stays_finishAt source e p) fun e v _ hmoved => ?_
      refine (hplace.keepsFrom v hmoved.ready).bind (fun p _ _ => c.stays_finishAt source e p)
        fun p v' hrun hmoved' => ?_
      have hok := (Build.run_ofFallible_eq_ok hrun).1
      exact keepsFrom_finishAt hsound hmoved'.ready (.inl (hdefault rfl p hok)) source e

end Compiler

/-! ## Linking -/

namespace Linker

variable {k : Linker}

/-- The glue keeps to the site: its text and its object are scratch files. -/
theorem keeps_compileGlue (hsound : Sound k.host s) (text name : String) :
    Keeps k.host s (k.compileGlue text name) := by
  have hrest : ∀ source, Keeps k.host s (do
      let object ← Build.allocate k.host (name ++ "-glue") ".o"
      let _ ← k.host.run (k.glueCall name source object)
      return object) := fun source =>
    (Site.keeps_allocate hsound _ (by decide)).bind fun object =>
      (Site.keeps_hostRun hsound _).bind fun _ => Site.keeps_pure object
  unfold compileGlue
  refine (Site.keeps_allocate hsound _ (by decide)).bindFrom
    (fun source => (Build.stays_onDisk _).bind fun _ => (hrest source).stays)
    fun source _ v hrun hv => ?_
  exact (Site.keepsFrom_writeText hv (Build.allocate_ok hrun).2.1 text).bind
    (fun _ _ _ => (hrest source).stays) fun _ v' _ h => (hrest source).keepsFrom v' h.ready

/-- A link keeps to a site that has its output. -/
theorem keeps_link (hsound : Sound k.host s) {output : Path} (hp : s.IsOutput output)
    (objects : List Path) (modeFlags libraries extraFlags : List String) :
    Keeps k.host s (k.link output objects modeFlags libraries extraFlags) where
  stays := (Build.stays_onDisk _).bind fun _ => (k.host.stays_run _).bind fun _ =>
    (Build.still_pure ()).stays
  keepsFrom := by
    intro w hw
    unfold link
    rw [← bind_assoc]
    exact (Site.keepsFrom_make hsound hw (.inl hp) (by simp [linkCall])).bind
      (fun _ _ _ => (Build.still_pure ()).stays)
        fun _ v _ h => (Site.keeps_pure ()).keepsFrom v h.ready

/-- A strip keeps to a site that has its output, also where it removes it. -/
theorem keeps_strip (hsound : Sound k.host s) {output : Path} (hp : s.IsOutput output)
    (flags : List String) : Keeps k.host s (k.strip output flags) where
  stays := (World.Stays.covers k.host fun _ => True).bears.strip trivial
  keepsFrom := fun _ hw => Site.keepsFrom_strip hsound hw hp flags

/-- An output is made from glue and linked and stripped at a place of its own. -/
theorem keeps_finish (hsound : Sound k.host s) {output : Path} (hp : s.IsOutput output)
    (text name : String) (objects : Path → List Path)
    (modeFlags libraries extraFlags stripFlags : List String) : Keeps k.host s (do
      let glueObject ← k.compileGlue text name
      k.link output (objects glueObject) modeFlags libraries extraFlags
      k.strip output stripFlags) :=
  (keeps_compileGlue hsound text name).bind fun glueObject =>
    (keeps_link hsound hp (objects glueObject) _ _ _).bind fun _ => keeps_strip hsound hp stripFlags

theorem keeps_bundle (hsound : Sound k.host s) (unit : CompiledUnit) {output : Path}
    (hp : s.IsOutput output) : Keeps k.host s (k.bundle unit output) := by
  unfold bundle
  refine (Site.keeps_of_still (Build.still_ofChecked _)).bind fun glue => ?_
  exact keeps_finish hsound hp glue _ (fun glueObject => [glueObject, unit.path]) _ _ _ _

theorem keeps_dylib (hsound : Sound k.host s) (inputs : List LinkInput) {output : Option Path}
    (hp : ∀ p, output = some p → s.IsOutput p) (linkerFlags : List String) :
    Keeps k.host s (k.dylib inputs output linkerFlags) := by
  cases output with
  | none => exact Site.keeps_of_still (Build.still_complain _)
  | some output =>
      exact keeps_finish hsound (hp output rfl) _ _
        (fun glueObject => glueObject :: inputs.map LinkInput.path) _ _ _ _

theorem keeps_executable (hsound : Sound k.host s) (inputs : List LinkInput) {output : Path}
    (hp : s.IsOutput output) (static : Bool) (frameworks linkerFlags : List String) :
    Keeps k.host s (k.executable inputs output static frameworks linkerFlags) := by
  unfold executable
  refine (Site.keeps_of_still (Build.still_ofChecked _)).bind fun glue => ?_
  exact keeps_finish hsound hp glue _
    (fun glueObject => glueObject :: inputs.map LinkInput.path) _ _ _ _

end Linker

/-! ## Whole builds -/

namespace Builder

variable {b : Builder} {r : Request} {layout : Toolchain} {c : Compiler} {k : Linker}

/-- A scan of the prebuilt inputs keeps to any site. -/
theorem keeps_scanPrebuilt (hsound : Sound b.host s) (tools : ToolPaths) (inputs : List Path)
    (found : Prebuilt) : Keeps b.host s (b.scanPrebuilt r layout tools inputs found) := by
  induction inputs generalizing found with
  | nil => exact Site.keeps_pure found
  | cons input later ih =>
      rw [scanPrebuilt_cons]
      split
      · exact ih found
      · refine (keeps_scanEntryPoint hsound tools.nm input).bind fun e => ?_
        exact (Site.keeps_of_still (still_settleObject r input e)).bind fun _ => ih _

/-- A source is compiled to an object among the scratch files. -/
theorem keeps_allocateAndCompile (hsound : Sound c.host s) {extension : String}
    (hextension : '/' ∉ extension.toList) (input : Path) {f : CompiledUnit → Build α}
    (hf : ∀ unit, Keeps c.host s (f unit)) : Keeps c.host s (do
      let object ← Build.allocate c.host input.stem extension
      let unit ← c.compile input (some object)
      f unit) := by
  refine (Site.keeps_allocate hsound _ hextension).bindFrom
    (fun object => (c.stays_compile input (some object)).bind fun unit => (hf unit).stays)
    fun object w v hrun hv => ?_
  have hgiven : ∀ p, some object = some p → s.Given v p := by
    intro p hp
    rw [← Option.some.inj hp]
    exact .inr (Build.allocate_ok hrun).2.1
  exact (Compiler.keepsFrom_compile hsound hv hgiven nofun).bind (fun unit _ _ => (hf unit).stays)
    fun unit v' _ hmoved => (hf unit).keepsFrom v' hmoved.ready

/-- The inputs of a link keep to the site: what is compiled for them are scratch files. -/
theorem keeps_linkInputs (hsound : Sound b.host s) (hc : c.host = b.host)
    (hextension : '/' ∉ layout.objectExtension.toList) (prebuilt : Prebuilt)
    (inputs : List Path) : Keeps b.host s (b.linkInputs layout c prebuilt inputs) := by
  induction inputs with
  | nil => exact Site.keeps_pure _
  | cons input later ih =>
      unfold linkInputs
      split
      · rw [← hc] at hsound ih ⊢
        simp only [map_eq_pure_bind, bind_assoc]
        refine keeps_allocateAndCompile hsound hextension input fun unit => ?_
        exact (Site.keeps_pure _).bind fun _ => ih.bind fun _ => Site.keeps_pure _
      · exact (Site.keeps_pure _).bind fun _ => ih.bind fun _ => Site.keeps_pure _

/-- **An object request** keeps to a site that has its outputs. -/
theorem keeps_buildObjects (hsound : Sound c.host s) {output : Option Path} {inputs : List Path}
    (hgiven : ∀ p, output = some p → s.IsOutput p)
    (hdefault : output = none → ∀ input ∈ inputs, ∀ p, c.defaultOutput input = .ok p →
      s.IsOutput p) : Keeps c.host s (buildObjects c output inputs) := by
  induction inputs with
  | nil => exact Site.keeps_pure _
  | cons input later ih =>
      unfold buildObjects
      have hlater := ih fun hnone other hin => hdefault hnone other (List.mem_cons_of_mem _ hin)
      have hcompile : Keeps c.host s (c.compile input output) :=
        ⟨c.stays_compile input output, fun w hw => Compiler.keepsFrom_compile hsound hw
          (fun p hp => .inl (hgiven p hp)) fun hnone => hdefault hnone input List.mem_cons_self⟩
      exact hcompile.bind fun unit => hlater.bind fun _ => Site.keeps_pure _

/-- **A bundle request** keeps to a site that has its outputs. -/
theorem keeps_buildBundles (hsound : Sound c.host s) (hk : k.host = c.host)
    (hextension : '/' ∉ layout.objectExtension.toList) {output : Option Path} {inputs : List Path}
    (hgiven : ∀ p, output = some p → s.IsOutput p)
    (hdefault : output = none → ∀ input ∈ inputs, ∀ p,
      input.withExtension layout.bundleExtension = .ok p → s.IsOutput p) :
    Keeps c.host s (buildBundles layout c k output inputs) := by
  induction inputs with
  | nil => exact Site.keeps_pure _
  | cons input later ih =>
      unfold buildBundles
      have hlater := ih fun hnone other hin => hdefault hnone other (List.mem_cons_of_mem _ hin)
      refine keeps_allocateAndCompile hsound hextension input fun unit => ?_
      -- wherever the bundle goes, the rest is the same
      have finished : ∀ p, s.IsOutput p → Keeps c.host s (do
          let artifact ← k.bundle unit p
          return artifact :: (← buildBundles layout c k output later)) := by
        intro p hp
        have hbundle := Linker.keeps_bundle (k := k) (hk ▸ hsound) unit hp
        rw [hk] at hbundle
        exact hbundle.bind fun _ => hlater.bind fun _ => Site.keeps_pure _
      cases output with
      | some output => exact finished output (hgiven output rfl)
      | none =>
          refine (Site.keeps_of_still (Build.still_ofFallible _)).bind_ok fun p w v hrun => ?_
          have hok := (Build.run_ofFallible_eq_ok hrun).1
          exact finished p (hdefault rfl input List.mem_cons_self p hok)

/-- **The work** on a request keeps to a site that has the request's outputs. -/
theorem keeps_buildArtifacts (hsound : Sound b.host s)
    (hextension : '/' ∉ layout.objectExtension.toList)
    (houtput : ∀ p, r.Output layout p → s.IsOutput p) (tools : ToolPaths) :
    Keeps b.host s (b.buildArtifacts r layout tools) := by
  rw [buildArtifacts_eq]
  -- the outputs matter only to what is produced
  have hready : Keeps b.host s (b.readyMade r layout tools) := by
    unfold readyMade
    split
    · exact Site.keeps_pure _
    · exact keeps_scanPrebuilt hsound tools r.inputs []
  have hflags : Keeps b.host s (b.exceptionFlags r layout tools) := by
    unfold exceptionFlags
    split
    · exact keeps_probeExceptionFlags hsound tools.backend
    · exact Site.keeps_pure _
  refine hready.bind fun prebuilt => hflags.bind fun exceptions => ?_
  refine (Site.keeps_of_still (still_bridgingFlags r layout)).bind fun bridging => ?_
  have hgiven : ∀ p, r.output = some p → s.IsOutput p := fun p hp => houtput p (.given hp)
  have hinputs := keeps_linkInputs (c := b.compilerFor r layout tools exceptions bridging) hsound
    rfl hextension prebuilt r.inputs
  unfold produce
  cases hkind : r.kind with
  | object =>
      exact keeps_buildObjects (c := b.compilerFor r layout tools exceptions bridging) hsound hgiven
        fun hnone input hin p hp => houtput p (.object hkind hnone hin hp)
  | bundle =>
      exact keeps_buildBundles (c := b.compilerFor r layout tools exceptions bridging)
        (k := b.linkerFor r layout tools) hsound rfl hextension hgiven
        fun hnone input hin p hp => houtput p (.bundle hkind hnone hin hp)
  | dylib =>
      exact hinputs.bind fun inputs =>
        (Linker.keeps_dylib (k := b.linkerFor r layout tools) hsound inputs hgiven _).bind
          fun _ => Site.keeps_pure _
  | executable =>
      refine hinputs.bind fun inputs => ?_
      refine (Site.keeps_of_still (still_executableOutput r)).bind_ok fun p w v hrun => ?_
      have hp := houtput p (output_of_executableOutput hkind hrun)
      exact (Linker.keeps_executable (k := b.linkerFor r layout tools) hsound inputs hp _ _ _).bind
        fun _ => Site.keeps_pure _

/-- A record of the problem changes no files. -/
theorem keeps_noteFailure {host : Host} {act : Build α} (h : Keeps host s act) :
    Keeps host s (noteFailure act) where
  stays := Builder.stays_noteFailure h.stays
  keepsFrom := by
    intro w hw
    have hact := h.keepsFrom w hw
    unfold KeepsFrom at hact ⊢
    unfold noteFailure
    rw [run_tryCatch]
    -- only a problem is noted, and the note is no file
    rcases hrun : act.run w with ⟨(problem | fault) | a, v⟩
    · rw [hrun] at hact
      intro hfits
      have hhalted : Site.Halted host s w v := hact hfits
      exact ⟨⟨hhalted.exchanges, hhalted.files, hhalted.directory⟩,
        ⟨hhalted.holds.directory, hhalted.holds.handedOut⟩, hhalted.loose, hhalted.frame⟩
    · rw [hrun] at hact
      exact hact
    · rw [hrun] at hact
      exact hact

end Builder

end AheadOfTime
