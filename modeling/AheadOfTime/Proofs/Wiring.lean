import AheadOfTime.Proofs.Output

/-! # What is linked, and what is registered

    A module's entry point travels two ways.  That of a source is drawn for its
    compilation and told to the front end; that of a ready-made object is read
    from the listing of its symbols, which is made once for every object.  Both
    meet in the list of link inputs, out of which the glue is written and the
    link command is put together.

    `LinkedAs` says where the link input of one input comes from, `Linked` says it
    of all the inputs in their order, and `run_wires_inputs` says that a build
    which answers has compiled the glue of exactly this list and has linked
    exactly its files. -/

namespace AheadOfTime

variable {w v : World}

/-! ## Where link inputs come from -/

/-- The call that lists the symbols of an object. -/
def Host.symbolsCall (nm object : Path) : Call where
  stage := .symbols
  argv := nm.toString :: SymbolListing.options ++ [object.toString]
  input := some object.toString

/-- The object's symbols were listed by `scan`, and the listing shows `e`. -/
def Scanned (nm object : Path) (e : Option EntryPoint) (scan : Exchange) : Prop :=
  scan.call = Host.symbolsCall nm object ∧ ∃ output u, scan.reply = .exited 0 output ∧
    ((SymbolListing.entryPoint? output (some object)).run u).1 = .ok e

/-- What is linked for an input, and the calls that were made for it: the unit
    that a source was compiled into, with the entry point of its front end; an
    object as it is, with the entry point in its listing; anything else as it
    is. -/
inductive LinkedAs (layout : Toolchain) (c : Compiler) (scans : List Exchange) (input : Path) :
    LinkInput → List Exchange → Prop where
  | source {unit : CompiledUnit} {made : List Exchange} :
      input.extension = layout.sourceExtension → unit.source = input → c.Compiled unit made →
      LinkedAs layout c scans input ⟨unit.path, some unit.entryPoint, input.stem⟩ made
  | object {e : Option EntryPoint} {scan : Exchange} :
      input.extension ≠ layout.sourceExtension → input.extension = layout.objectExtension →
      scan ∈ scans → Scanned c.tools.nm input e scan →
      LinkedAs layout c scans input ⟨input, e, input.stem⟩ []
  | library : input.extension ≠ layout.sourceExtension →
      input.extension ≠ layout.objectExtension →
      LinkedAs layout c scans input ⟨input, none, input.stem⟩ []

/-- What is linked for the inputs, one after the other. -/
inductive Linked (layout : Toolchain) (c : Compiler) (scans : List Exchange) :
    List Path → List LinkInput → List Exchange → Prop where
  | nil : Linked layout c scans [] [] []
  | cons {input : Path} {link : LinkInput} {made : List Exchange} {later : List Path}
      {links : List LinkInput} {more : List Exchange} :
      LinkedAs layout c scans input link made → Linked layout c scans later links more →
      Linked layout c scans (input :: later) (link :: links) (made ++ more)

/-! ## Scanning -/

/-- The entry points of ready-made objects, each one with the call that listed
    its symbols. -/
inductive ScannedAll (nm : Path) : Prebuilt → List Exchange → Prop where
  | nil : ScannedAll nm [] []
  | cons {object : Path} {e : Option EntryPoint} {scan : Exchange} {more : Prebuilt}
      {scans : List Exchange} : Scanned nm object e scan → ScannedAll nm more scans →
      ScannedAll nm ((object, e) :: more) (scan :: scans)

namespace ScannedAll

/-- The calls for symbols are those for the objects, in their order. -/
theorem calls_eq {nm : Path} {found : Prebuilt} {scans : List Exchange}
    (h : ScannedAll nm found scans) :
    scans.map (·.call) = found.map fun entry => Host.symbolsCall nm entry.1 := by
  induction h with
  | nil => rfl
  | cons hscan _ ih => rw [List.map_cons, List.map_cons, hscan.1, ih]

/-- None of them links. -/
theorem stage_ne_link {nm : Path} {found : Prebuilt} {scans : List Exchange}
    (h : ScannedAll nm found scans) : ∀ x ∈ scans, x.call.stage ≠ .link := by
  induction h with
  | nil =>
      intro x hx
      exact nomatch hx
  | cons hscan _ ih =>
      intro x hx
      rcases List.mem_cons.mp hx with rfl | hx
      · rw [hscan.1]
        exact nofun
      · exact ih x hx

/-- What an object was found to hold was listed by a call for it. -/
theorem of_lookup {nm object : Path} {found : Prebuilt} {scans : List Exchange}
    (h : ScannedAll nm found scans) {e : Option EntryPoint}
    (hlookup : found.lookup object = some e) : ∃ scan ∈ scans, Scanned nm object e scan := by
  induction h with
  | nil => exact nomatch hlookup
  | @cons other _ scan _ _ hscan _ ih =>
      by_cases hsame : object = other
      · subst hsame
        rw [List.lookup_cons_self] at hlookup
        rw [← Option.some.inj hlookup]
        exact ⟨scan, List.mem_cons_self, hscan⟩
      · rw [List.lookup_cons, beq_false_of_ne hsame] at hlookup
        obtain ⟨scan', hin, hscan'⟩ := ih hlookup
        exact ⟨scan', List.mem_cons_of_mem _ hin, hscan'⟩

end ScannedAll

/-- A scan that answers is one call, and what it listed. -/
theorem Host.scanEntryPoint_ok {host : Host} {nm object : Path} {e : Option EntryPoint}
    (h : (host.scanEntryPoint nm object).run w = (.ok e, v)) :
    ∃ scan, v.exchanges = w.exchanges ++ [scan] ∧ Scanned nm object e scan := by
  obtain ⟨result, u, hrun, hlisting⟩ := run_bind_eq_ok h
  obtain ⟨_, status, output, -, hreply, hzero, hresult⟩ := run_hostRun_eq_ok hrun
  refine ⟨host.exchanged (symbolsCall nm object) w, ?_, rfl, output, u, ?_, ?_⟩
  · rw [(SymbolListing.still_entryPoint? _ _).quiet.exchanges_eq hlisting, hostRun_ok hrun]
    rfl
  · rw [← hzero rfl]
    exact hreply
  · rw [hresult] at hlisting
    rw [hlisting]

/-- The scan of the ready-made objects finds those that were not found before,
    each one with its own call. -/
theorem Builder.scanPrebuilt_ok {b : Builder} {r : Request} {layout : Toolchain}
    {tools : ToolPaths} {inputs : List Path} {found prebuilt : Prebuilt}
    (h : (b.scanPrebuilt r layout tools inputs found).run w = (.ok prebuilt, v)) :
    ∃ more scans, prebuilt = found ++ more ∧ v.exchanges = w.exchanges ++ scans ∧
      ScannedAll tools.nm more scans ∧ more.map Prod.fst = unscanned layout found inputs := by
  induction inputs generalizing found w with
  | nil =>
      obtain ⟨rfl, rfl⟩ := run_pure_eq_ok h
      exact ⟨[], [], (List.append_nil _).symm, (List.append_nil _).symm, .nil, rfl⟩
  | cons input later ih =>
      rw [scanPrebuilt_cons] at h
      by_cases hskip : input.extension ≠ layout.objectExtension ∨ found.any (·.1 == input)
      · rw [if_pos hskip] at h
        rw [unscanned_cons_of_skip later hskip]
        exact ih h
      · rw [if_neg hskip] at h
        rw [not_or, Decidable.not_not, Bool.not_eq_true] at hskip
        obtain ⟨e, u, hscan, h⟩ := run_bind_eq_ok h
        obtain ⟨scan, hscan, hscanned⟩ := Host.scanEntryPoint_ok hscan
        -- a record may be added before the scan goes on
        obtain ⟨_, u', hsettle, hrest⟩ := run_bind_eq_ok h
        have hu' : u'.exchanges = u.exchanges :=
          (still_settleObject r input e).quiet.exchanges_eq hsettle
        obtain ⟨more, scans, hprebuilt, hscans, hall, hkeys⟩ := ih hrest
        refine ⟨(input, e) :: more, scan :: scans, ?_, ?_, .cons hscanned hall, ?_⟩
        · rw [hprebuilt, List.append_assoc, List.singleton_append]
        · rw [hscans, hu', hscan, List.append_assoc, List.singleton_append]
        · rw [unscanned_cons_of_new later e hskip.1 hskip.2, List.map_cons, hkeys]

private theorem isSome_lookup {found : Prebuilt} {object : Path}
    (h : object ∈ found.map Prod.fst) : (found.lookup object).isSome = true := by
  obtain ⟨entry, hin, rfl⟩ := List.mem_map.mp h
  exact List.lookup_isSome_iff.mpr ⟨entry, hin, beq_self_eq_true _⟩

private theorem lookup_eq_none {found : Prebuilt} {object : Path}
    (h : object ∉ found.map Prod.fst) : found.lookup object = none := by
  refine List.lookup_eq_none_iff.mpr fun entry hin => ?_
  rw [bne_iff_ne]
  rintro rfl
  exact h (List.mem_map_of_mem hin)

/-! ## Putting the link inputs together -/

namespace LinkInput

/-- A file that is linked as it is registers under its stem. -/
theorem of_file (path : Path) (e : Option EntryPoint) : of path e "" = ⟨path, e, path.stem⟩ := rfl

/-- A unit registers under the stem of its source, if that is not empty. -/
theorem ofUnit_eq {unit : CompiledUnit} (h : unit.source.stem ≠ "") :
    ofUnit unit = ⟨unit.path, some unit.entryPoint, unit.source.stem⟩ := by
  unfold ofUnit of
  rw [if_neg h]

end LinkInput

/-- **One pass over the inputs** puts together what is linked for them, if the
    ready-made objects among them have been scanned. -/
theorem Builder.linkInputs_ok {b : Builder} {layout : Toolchain} {c : Compiler}
    {prebuilt : Prebuilt} {scans : List Exchange} {inputs : List Path} {links : List LinkInput}
    (hscans : ScannedAll c.tools.nm prebuilt scans)
    (hkeys : ∀ input ∈ inputs, input ∈ prebuilt.map Prod.fst ↔
      input.extension = layout.objectExtension)
    (hstems : ∀ input ∈ inputs, input.stem ≠ "")
    (h : (b.linkInputs layout c prebuilt inputs).run w = (.ok links, v)) :
    ∃ made, v.exchanges = w.exchanges ++ made ∧ Linked layout c scans inputs links made := by
  induction inputs generalizing links w with
  | nil =>
      obtain ⟨rfl, rfl⟩ := run_pure_eq_ok h
      exact ⟨[], (List.append_nil _).symm, .nil⟩
  | cons input later ih =>
      have hkey := hkeys input List.mem_cons_self
      have hstem := hstems input List.mem_cons_self
      -- what is linked for the first input
      obtain ⟨link, made, u, hmade, hlink, hrest⟩ : ∃ link made u,
          u.exchanges = w.exchanges ++ made ∧ LinkedAs layout c scans input link made ∧
          (do return link :: (← b.linkInputs layout c prebuilt later)).run u = (.ok links, v) := by
        unfold linkInputs at h
        by_cases hsource : input.extension = layout.sourceExtension
        · rw [if_pos hsource] at h
          obtain ⟨object, w₁, hallocate, hnext⟩ := run_bind_eq_ok h
          obtain ⟨link, u, hcompile, hrest⟩ := run_bind_eq_ok hnext
          rw [map_eq_pure_bind] at hcompile
          obtain ⟨unit, w₂, hunit, hlink⟩ := run_bind_eq_ok hcompile
          obtain ⟨rfl, rfl⟩ := run_pure_eq_ok hlink
          obtain ⟨rfl, -, made, hmade, hcompiled⟩ := Compiler.compile_ok hunit
          refine ⟨_, made, w₂, ?_, ?_, hrest⟩
          · rw [hmade, (Build.quiet_allocate _ _ _).exchanges_eq hallocate]
          · rw [LinkInput.ofUnit_eq hstem]
            exact .source hsource rfl hcompiled
        · rw [if_neg hsource] at h
          refine ⟨_, [], w, (List.append_nil _).symm, ?_, h⟩
          rw [LinkInput.of_file]
          by_cases hobject : input.extension = layout.objectExtension
          · obtain ⟨e, he⟩ := Option.isSome_iff_exists.mp (isSome_lookup (hkey.mpr hobject))
            obtain ⟨scan, hin, hscanned⟩ := hscans.of_lookup he
            rw [he]
            exact .object hsource hobject hin hscanned
          · rw [lookup_eq_none (mt hkey.mp hobject)]
            exact .library hsource hobject
      obtain ⟨rest, u', hlinks, hanswer⟩ := run_bind_eq_ok hrest
      obtain ⟨rfl, rfl⟩ := run_pure_eq_ok hanswer
      obtain ⟨more, hmore, hlater⟩ := ih (fun other hin => hkeys other (List.mem_cons_of_mem _ hin))
        (fun other hin => hstems other (List.mem_cons_of_mem _ hin)) hlinks
      refine ⟨made ++ more, ?_, .cons hlink hlater⟩
      rw [hmore, hmade, List.append_assoc]

/-! ## Stems of inputs -/

namespace Path

/-- A path with a name has a stem. -/
theorem stem_ne_empty {p : Path} (h : p.name ≠ "") : p.stem ≠ "" := by
  unfold stem splitName
  split
  · split
    · rename_i before extension _ hproper
      intro hempty
      exact hproper.1 (String.ofList_eq_empty_iff.mp hempty)
    · exact h
  · exact h

/-- A path that is read from a text has no empty names. -/
theorem name_ne_empty_of_parts {text : String} (h : (ofString text).parts ≠ []) :
    (ofString text).name ≠ "" := by
  have hin := List.getLast_mem h
  have hname : isName ((ofString text).parts.getLast h) = true := (List.mem_filter.mp hin).2
  unfold name
  rw [List.getLast?_eq_some_getLast h, Option.getD_some]
  intro hempty
  rw [hempty] at hname
  exact nomatch hname

end Path

/-- What is a file has a name, where the working directory is a directory. -/
theorem FileTree.parts_ne_nil_of_isFile {t : FileTree} {p : Path}
    (hcwd : t.entryAt? t.workingDirectory = some .directory) (h : t.isFile? p = .ok true) :
    p.parts ≠ [] := by
  intro hnil
  have hstart : t.entryAt? (t.start p) = some .directory := by
    unfold start
    split
    · exact hcwd
    · rfl
  unfold isFile? lookAt status locate holdsNul at h
  rw [hnil] at h
  by_cases hlong : p.toString.utf8ByteSize > pathLimit
  · rw [if_pos hlong] at h
    exact nomatch h
  · rw [if_neg hlong] at h
    have hwalk : t.walk .target linkLimit (t.start p) [] = .ok (t.start p) := rfl
    rw [hwalk] at h
    dsimp only [bind, Except.bind] at h
    rw [hstart] at h
    exact nomatch h

/-! ## The whole build -/

namespace Request

/-- The glue that the kind of output needs. -/
def glueText (r : Request) (links : List LinkInput) : Except Problem String :=
  match r.kind with
  | .dylib => .ok (Glue.ofDylib links)
  | _ => Glue.ofExecutable links

/-- The link command that the kind of output needs. -/
def linkCall (r : Request) (k : Linker) (output : Path) (objects : List Path) : Call :=
  match r.kind with
  | .dylib => k.linkCall output objects ["-dynamiclib"] k.runtimeFlags r.linkerFlags
  | _ => k.linkCall output objects [] (k.runtimeLibraries r.static
      ++ r.frameworks.flatMap (["-framework", ·]) ++ ["-lstdc++"])
      (withoutDylibOptions r.linkerFlags)

end Request

/-! ## One link -/

namespace Compiler

/-- A call for an architecture is one of three stages. -/
theorem ForArchs.stage_mem {c : Compiler} {source : Path} {e : EntryPoint} {archs : List Arch}
    {objects : List Path} {made : List Exchange} (h : c.ForArchs source e archs objects made) :
    ∀ x ∈ made, x.call.stage ∈ [Stage.frontend, .backend, .assemble] := by
  induction h with
  | nil =>
      intro x hx
      exact nomatch hx
  | cons harch _ hshuffled ih =>
      obtain ⟨_, _, first, second, third, rfl, hfirst, hsecond, hthird⟩ := harch
      intro x hx
      rcases List.mem_append.mp (hshuffled.perm.mem_iff.mp hx) with hx | hx
      · rcases List.mem_cons.mp hx with rfl | hx
        · rw [hfirst]
          exact List.mem_cons_self
        · rcases List.mem_cons.mp hx with rfl | hx
          · rw [hsecond]
            exact List.mem_cons_of_mem _ List.mem_cons_self
          · rw [List.mem_singleton.mp hx, hthird]
            exact List.mem_cons_of_mem _ (List.mem_cons_of_mem _ List.mem_cons_self)
      · exact ih x hx

/-- No call of a compilation links. -/
theorem Compiled.stage_ne_link {c : Compiler} {unit : CompiledUnit} {made : List Exchange}
    (h : c.Compiled unit made) : ∀ x ∈ made, x.call.stage ≠ .link := by
  obtain ⟨objects, front, merge, rfl, harchs, hmerge⟩ := h
  intro x hx hlink
  rcases List.mem_append.mp hx with hx | hx
  · have hstage := harchs.stage_mem x hx
    rw [hlink] at hstage
    exact absurd hstage (by decide)
  · rw [List.mem_singleton.mp hx, hmerge] at hlink
    exact nomatch hlink

end Compiler

/-- Nothing is linked while the link inputs are put together. -/
theorem Linked.stage_ne_link {layout : Toolchain} {c : Compiler} {scans : List Exchange}
    {inputs : List Path} {links : List LinkInput} {made : List Exchange}
    (h : Linked layout c scans inputs links made) : ∀ x ∈ made, x.call.stage ≠ .link := by
  induction h with
  | nil =>
      intro x hx
      exact nomatch hx
  | cons hlink _ ih =>
      intro x hx
      rcases List.mem_append.mp hx with hx | hx
      · cases hlink with
        | source _ _ hcompiled => exact hcompiled.stage_ne_link x hx
        | object => exact nomatch hx
        | library => exact nomatch hx
      · exact ih x hx

/-- What is left of a build that links, once its inputs are put together: the
    glue of the link inputs is compiled, and the output is linked from its object
    and their files. -/
theorem Builder.produce_ok {b : Builder} {r : Request} {layout : Toolchain} {c : Compiler}
    {k : Linker} {prebuilt : Prebuilt} {artifacts : List Path}
    (hkind : r.kind = .dylib ∨ r.kind = .executable)
    (h : (b.produce r layout c k prebuilt).run w = (.ok artifacts, v)) :
    ∃ links u output text name source object executable glue link strip,
      (b.linkInputs layout c prebuilt r.inputs).run w = (.ok links, u) ∧
      artifacts = [output] ∧ v.exchanges = u.exchanges ++ [glue, link, strip] ∧
      r.glueText links = .ok text ∧ glue.call = k.glueCall name source object ∧
      glue.found.status source = .ok (.ofText text executable) ∧
      link.call = r.linkCall k output (object :: links.map LinkInput.path) ∧
      strip.call.stage = .strip := by
  unfold produce at h
  unfold Request.glueText Request.linkCall
  rcases hkind with hkind | hkind
  · -- a dynamic library has to be given an output
    rw [hkind] at h ⊢
    obtain ⟨links, u, hlinks, h₁⟩ := run_bind_eq_ok h
    obtain ⟨artifact, u', hdylib, h₂⟩ := run_bind_eq_ok h₁
    obtain ⟨rfl, rfl⟩ := run_pure_eq_ok h₂
    rcases houtput : r.output with _ | output
    · rw [houtput] at hdylib
      exact absurd hdylib error_ne_ok
    · rw [houtput] at hdylib
      obtain ⟨rfl, source, object, executable, glue, link, strip, hmade, hglue, hfound, hlink,
        hstrip⟩ := Linker.finish_ok (fun glue => glue :: links.map LinkInput.path) hdylib
      exact ⟨links, u, _, _, _, source, object, executable, glue, link, strip, hlinks, rfl, hmade,
        rfl, hglue, hfound, hlink, congrArg Call.stage hstrip⟩
  · -- an executable may be named after its first input, and its glue is checked
    rw [hkind] at h ⊢
    obtain ⟨links, u, hlinks, h₁⟩ := run_bind_eq_ok h
    obtain ⟨output, u₁, houtput, h₂⟩ := run_bind_eq_ok h₁
    obtain ⟨artifact, u₂, hexecutable, h₃⟩ := run_bind_eq_ok h₂
    obtain ⟨rfl, rfl⟩ := run_pure_eq_ok h₃
    obtain ⟨text, u₃, hchecked, hfinish⟩ := run_bind_eq_ok hexecutable
    obtain ⟨htext, rfl⟩ := Build.run_ofChecked_eq_ok hchecked
    obtain ⟨rfl, source, object, executable, glue, link, strip, hmade, hglue, hfound, hlink,
      hstrip⟩ := Linker.finish_ok (fun glue => glue :: links.map LinkInput.path) hfinish
    refine ⟨links, u, _, text, _, source, object, executable, glue, link, strip, hlinks, rfl, ?_,
      htext, hglue, hfound, hlink, congrArg Call.stage hstrip⟩
    rw [hmade, (still_executableOutput r).quiet.exchanges_eq houtput]

/-- How the calls of a build that links belong together. -/
structure Wiring (b : Builder) (r : Request) (made : List Exchange) where
  tools : ToolPaths
  exceptions : List String
  bridging : List String
  scans : List Exchange
  probe : List Exchange
  compiles : List Exchange
  glue : Exchange
  link : Exchange
  strip : Exchange
  made_eq : made = scans ++ probe ++ compiles ++ [glue, link, strip]
  /-- There is one link. -/
  one_link : ∀ x ∈ scans ++ probe ++ compiles ++ [glue, strip], x.call.stage ≠ .link
  /-- The symbols of every ready-made object are listed once. -/
  one_scan : scans.map (·.call)
    = (distinct (r.inputs.filter (·.extension = (r.layout b.toolchain).objectExtension))).map
      (Host.symbolsCall tools.nm)
  /-- What is linked for the inputs, in their order. -/
  links : List LinkInput
  linked : Linked (r.layout b.toolchain)
    (b.compilerFor r (r.layout b.toolchain) tools exceptions bridging) scans r.inputs links compiles
  text : String
  name : String
  source : Path
  object : Path
  output : Path
  executable : Bool
  /-- The glue is that of the link inputs. -/
  text_eq : r.glueText links = .ok text
  glue_eq : glue.call = (b.linkerFor r (r.layout b.toolchain) tools).glueCall name source object
  /-- The glue lies where the tool that compiles it is told to find it. -/
  written : glue.found.status source = .ok (.ofText text executable)
  /-- What is linked is the object of the glue and the files of the link inputs. -/
  link_eq : link.call = r.linkCall (b.linkerFor r (r.layout b.toolchain) tools) output
    (object :: links.map LinkInput.path)

/-- **What a build links, and what it registers.**  A build of a dynamic library
    or an executable that answers has put together what is linked for its inputs
    in their order, has compiled the glue of exactly these link inputs, and has
    linked the object of the glue and then exactly their files. -/
theorem run_wires_inputs {b : Builder} {r : Request} {result : BuildResult}
    (hkind : r.kind = .dylib ∨ r.kind = .executable)
    (hread : ∀ input ∈ r.inputs, ∃ text, input = .ofString text)
    (hcwd : w.files.entryAt? w.files.workingDirectory = some .directory)
    (h : (b.run r).run w = (.ok result, v)) :
    ∃ made, v.exchanges = w.exchanges ++ made ∧
      ∃ wiring : Wiring b r made, result.artifacts = [wiring.output] := by
  obtain ⟨hcheck, tools, u, u', hwork, hu, hv⟩ := Builder.run_ok h
  have hdirect : r.kind.isPerInput = false := by
    rcases hkind with hkind | hkind <;> rw [hkind] <;> rfl
  have hstems : ∀ input ∈ r.inputs, input.stem ≠ "" := by
    intro input hin
    have hparts := FileTree.parts_ne_nil_of_isFile hcwd (Request.inputs_of_check hcheck input hin).1
    obtain ⟨text, rfl⟩ := hread input hin
    exact Path.stem_ne_empty (Path.name_ne_empty_of_parts hparts)
  rw [Builder.buildArtifacts_eq] at hwork
  obtain ⟨prebuilt, u₁, hscan, hwork₁⟩ := run_bind_eq_ok hwork
  obtain ⟨exceptions, u₂, hprobe, hwork₂⟩ := run_bind_eq_ok hwork₁
  obtain ⟨bridging, u₃, hbridging, hproduce⟩ := run_bind_eq_ok hwork₂
  -- the scans
  unfold Builder.readyMade at hscan
  rw [if_neg (by rw [hdirect]; exact nofun)] at hscan
  obtain ⟨_, scans, rfl, hscans, hall, hkeys⟩ := Builder.scanPrebuilt_ok hscan
  rw [Builder.unscanned_nil_found] at hkeys
  -- the probe
  obtain ⟨probe, hprobes, hobeys⟩ := b.follows_exceptionFlags r (r.layout b.toolchain) tools u₁
  rw [hprobe] at hprobes hobeys
  have hasked : ∀ x ∈ probe, x.call.stage ≠ .link := by
    intro x hx hlink
    obtain ⟨p, hp, hlabel⟩ := hobeys.label_mem hx
    unfold Request.probePlan at hp
    split at hp
    · rw [List.mem_singleton.mp hp] at hlabel
      have hstage := congrArg Label.stage (List.mem_singleton.mp hlabel)
      rw [show x.call.label.stage = .link from hlink] at hstage
      exact nomatch hstage
    · exact nomatch hp
  -- the rest
  obtain ⟨links, u₄, output, text, name, source, object, executable, glue, link, strip, hlinks,
    hartifacts, hmade, htext, hglue, hfound, hlink, hstrip⟩ := Builder.produce_ok hkind hproduce
  have hscanned : ∀ input ∈ r.inputs, input ∈ prebuilt.map Prod.fst ↔
      input.extension = (r.layout b.toolchain).objectExtension := by
    intro input hin
    rw [hkeys, mem_distinct, List.mem_filter, decide_eq_true_eq]
    exact ⟨fun hand => hand.2, fun hobject => ⟨hin, hobject⟩⟩
  obtain ⟨compiles, hcompiles, hlinked⟩ := Builder.linkInputs_ok hall hscanned
    hstems hlinks
  have honce : ∀ x ∈ scans ++ probe ++ compiles ++ [glue, strip], x.call.stage ≠ .link := by
    intro x hx
    rcases List.mem_append.mp hx with hx | hx
    · rcases List.mem_append.mp hx with hx | hx
      · rcases List.mem_append.mp hx with hx | hx
        · exact hall.stage_ne_link x hx
        · exact hasked x hx
      · exact hlinked.stage_ne_link x hx
    · rcases List.mem_cons.mp hx with rfl | hx
      · rw [hglue]
        exact nofun
      · rw [List.mem_singleton.mp hx, hstrip]
        exact nofun
  have hcalls : scans.map (·.call) = (distinct (r.inputs.filter
      (·.extension = (r.layout b.toolchain).objectExtension))).map (Host.symbolsCall tools.nm) := by
    rw [hall.calls_eq, ← hkeys, List.map_map]
    rfl
  refine ⟨scans ++ probe ++ compiles ++ [glue, link, strip], ?_, ?_⟩
  · rw [hv, hmade, hcompiles, (Builder.still_bridgingFlags r _).quiet.exchanges_eq hbridging,
      hprobes, hscans, hu]
    simp only [List.append_assoc]
  · exact ⟨{
      tools
      exceptions
      bridging
      scans
      probe
      compiles
      glue
      link
      strip
      made_eq := rfl
      one_link := honce
      one_scan := hcalls
      links
      linked := hlinked
      text
      name
      source
      object
      output
      executable
      text_eq := htext
      glue_eq := hglue
      written := hfound
      link_eq := hlink }, hartifacts⟩

private theorem answers_of_isSome {α : Type} {x : Except Failure α × World}
    (h : x.1.toOption.isSome = true) : ∃ a v, x = (.ok a, v) := by
  obtain ⟨_ | a, v⟩ := x
  · exact nomatch h
  · exact ⟨a, v, rfl⟩

theorem run_wires_inputs_mixed :
    ∃ result v, (idleBuilder.run mixedRequest).run mixedWorld = (.ok result, v) ∧
      ∃ made, v.exchanges = mixedWorld.exchanges ++ made ∧
        ∃ wiring : Wiring idleBuilder mixedRequest made, result.artifacts = [wiring.output] := by
  have hread : ∀ input ∈ mixedRequest.inputs, ∃ text, input = .ofString text := by
    intro input hin
    have hin : input ∈ ["a.rb", "b.o", "a.rb", "b.o"].map Path.ofString := hin
    obtain ⟨text, -, rfl⟩ := List.mem_map.mp hin
    exact ⟨text, rfl⟩
  obtain ⟨result, v, h⟩ : ∃ result v,
      (idleBuilder.run mixedRequest).run mixedWorld = (.ok result, v) :=
    answers_of_isSome (by decide +kernel)
  exact ⟨result, v, h, run_wires_inputs (.inl rfl) hread rfl h⟩

end AheadOfTime
