import AheadOfTime.Proofs.Shares

/-! # The chain of calls that compiles a source

    A compilation hands files from call to call: the front end's bitcode is read
    by the back end, whose assembly is read by the C compiler, whose objects, one
    for each architecture, are merged into the unit's object.  The calls of the
    architectures may get between each other, and the merge is behind them all.
    `Compiler.Compiled` says this of a list of exchanges, and `compile_ok` says that
    a compilation which answers a unit has made exactly such calls. -/

namespace AheadOfTime

/-- The call that merges objects. -/
def Host.mergeCall (lipo : Path) (objects : List Path) (output : Path) (input : Option String) :
    Call where
  stage := .merge
  argv := [lipo.toString, "-create"] ++ objects.map Path.toString ++ ["-output", output.toString]
  input

namespace Compiler

/-- The exchanges of one architecture: bitcode, assembly and `object` are passed
    on from one call to the next. -/
def ForArch (c : Compiler) (source : Path) (e : EntryPoint) (arch : Arch) (object : Path)
    (made : List Exchange) : Prop :=
  ∃ bitcode assembly x y z, made = [x, y, z] ∧
    x.call = c.frontendCall source arch e bitcode ∧
    y.call = c.backendCall source arch bitcode assembly ∧
    z.call = c.assembleCall source arch assembly object

/-- The exchanges of several architectures, each with its own in their order, and
    the object of each. -/
inductive ForArchs (c : Compiler) (source : Path) (e : EntryPoint) :
    List Arch → List Path → List Exchange → Prop where
  | nil : ForArchs c source e [] [] []
  | cons {arch : Arch} {object : Path} {own : List Exchange} {archs : List Arch}
      {objects : List Path} {others made : List Exchange} :
      c.ForArch source e arch object own → ForArchs c source e archs objects others →
      Shuffled own others made →
      ForArchs c source e (arch :: archs) (object :: objects) made

/-- The exchanges that compile a unit: those of every architecture, and one that
    merges their objects into the unit's. -/
def Compiled (c : Compiler) (unit : CompiledUnit) (made : List Exchange) : Prop :=
  ∃ objects front merge, made = front ++ [merge] ∧
    c.ForArchs unit.source unit.entryPoint c.archs objects front ∧
    merge.call = Host.mergeCall c.tools.lipo objects unit.path (some unit.source.toString)

end Compiler

/-! ## What a step that answers has called -/

namespace Host

/-- A command that answers has made its one call. -/
theorem hostRun_ok {host : Host} {c : Call} {w v : World} {result : ToolResult}
    (h : (host.run c).run w = (.ok result, v)) :
    v.exchanges = w.exchanges ++ [host.exchanged c w] := by
  obtain ⟨program, _, _, hv, -, -, -⟩ := run_hostRun_eq_ok h
  rw [hv]
  rfl

/-- A merge that answers is one call. -/
theorem mergeObjects_ok {host : Host} {lipo : Path} {objects : List Path} {output answer : Path}
    {input : Option String} {w v : World}
    (h : (host.mergeObjects lipo objects output input).run w = (.ok answer, v)) :
    ∃ merge : Exchange, merge.call = mergeCall lipo objects output input ∧
      v.exchanges = w.exchanges ++ [merge] := by
  unfold mergeObjects at h
  by_cases hnone : objects = []
  · rw [if_pos hnone] at h
    obtain ⟨_, _, hcomplain, -⟩ := run_bind_eq_ok h
    exact absurd hcomplain error_ne_ok
  · rw [if_neg hnone] at h
    obtain ⟨_, u, hmake, h⟩ := run_bind_eq_ok h
    obtain ⟨_, _, hmerge, h⟩ := run_bind_eq_ok h
    obtain ⟨-, rfl⟩ := run_pure_eq_ok h
    refine ⟨host.exchanged (mergeCall lipo objects output input) u, rfl, ?_⟩
    rw [← (Build.quiet_onDisk _).exchanges_eq hmake]
    exact hostRun_ok hmerge

end Host

namespace Compiler

/-- An architecture with an object has taken three calls that hand on their files. -/
theorem Does.forArch {c : Compiler} {source : Path} {e : EntryPoint} {p : Part} {object : Path}
    (h : c.Does source e p) (hobject : p.outcome = some (.ok object)) :
    c.ForArch source e p.arch object p.made := by
  cases h with
  | calledOff => exact nomatch hobject
  | failed => exact nomatch hobject
  | made hperformed =>
      cases hobject
      obtain ⟨x, _, rfl, hx, hcalls⟩ := List.map_eq_cons_iff.mp hperformed.calls_eq
      obtain ⟨y, _, rfl, hy, hcalls⟩ := List.map_eq_cons_iff.mp hcalls
      obtain ⟨z, rfl, hz⟩ := List.map_eq_singleton_iff.mp hcalls
      exact ⟨_, _, x, y, z, rfl, hx, hy, hz⟩

/-- **Architectures that answer** have made the calls of `ForArchs`, in turn or side by
    side. -/
theorem compileAll_ok {c : Compiler} {source : Path} {e : EntryPoint} {objects : List Path}
    {w v : World} (h : (c.compileAll source e).run w = (.ok objects, v)) :
    ∃ made, v.exchanges = w.exchanges ++ made ∧ c.ForArchs source e c.archs objects made := by
  obtain ⟨parts, made, _, hparted⟩ := parted_compileAll h
  refine ⟨made, hparted.recounts.exchanges, ?_⟩
  rw [← hparted.archs]
  have hobjects := hparted.decided.eq_of_ok
  have hdoes := hparted.does
  have hwoven := hparted.woven
  clear h hparted
  -- the parts are gone through with their objects and with what they add to the whole
  induction parts generalizing objects made with
  | nil =>
      obtain rfl := List.map_eq_nil_iff.mp hobjects.symm
      cases hwoven
      exact .nil
  | cons p later ih =>
      obtain ⟨object, rest, rfl, hobject, hrest⟩ := List.map_eq_cons_iff.mp hobjects.symm
      obtain ⟨hp, hlater⟩ := List.forall_mem_cons.mp hdoes
      obtain _ | ⟨hothers, hshuffled⟩ := hwoven
      exact .cons (hp.forArch hobject.symm) (ih _ hrest.symm hlater hothers) hshuffled

/-- **A compilation that answers** has compiled the source it was given, to the
    output it was given if there was one, with the calls of `Compiled`. -/
theorem compile_ok {c : Compiler} {source : Path} {output : Option Path} {unit : CompiledUnit}
    {w v : World} (h : (c.compile source output).run w = (.ok unit, v)) :
    unit.source = source ∧ (∀ path, output = some path → unit.path = path) ∧
      ∃ made, v.exchanges = w.exchanges ++ made ∧ c.Compiled unit made := by
  unfold compile at h
  obtain ⟨e, w₁, h₁, h⟩ := run_bind_eq_ok h
  -- the destination is given, or it is named after the source, which calls no tool
  obtain ⟨destination, w₂, hdestination, h, quiet₂⟩ : ∃ destination w₂,
      (∀ path, output = some path → destination = path) ∧
      (do
        let objects ← c.compileAll source e
        let _ ← c.host.mergeObjects c.tools.lipo objects destination (some source.toString)
        return (⟨source, destination, e⟩ : CompiledUnit)).run w₂ = (.ok unit, v) ∧
      w₂.exchanges = w₁.exchanges := by
    cases output with
    | some output =>
        refine ⟨output, w₁, ?_, h, rfl⟩
        intro path hpath
        exact Option.some.inj hpath
    | none =>
        obtain ⟨destination, w₂, h₂, h⟩ := run_bind_eq_ok h
        refine ⟨destination, w₂, ?_, h, (Build.still_ofFallible _).quiet.exchanges_eq h₂⟩
        intro path hpath
        exact nomatch hpath
  obtain ⟨objects, w₃, h₃, h⟩ := run_bind_eq_ok h
  obtain ⟨_, w₄, h₄, h⟩ := run_bind_eq_ok h
  obtain ⟨front, hfront, harchs⟩ := compileAll_ok h₃
  obtain ⟨merge, hcall, hmerge⟩ := Host.mergeObjects_ok h₄
  obtain ⟨rfl, rfl⟩ := run_pure_eq_ok h
  refine ⟨rfl, hdestination, front ++ [merge], ?_, objects, front, merge, rfl, harchs, hcall⟩
  rw [hmerge, hfront, quiet₂,
    EntryPoint.still_generate.quiet.exchanges_eq h₁, List.append_assoc]

end Compiler

end AheadOfTime
