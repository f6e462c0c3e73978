import AheadOfTime.Proofs.Blame

/-! # The program body of an executable

    An executable runs its first input, which has to have an entry point.  Three
    steps look after this: the checks of the request refuse a dynamic library in
    first place, the look into the ready-made objects refuses an object that lists
    no entry point, and the glue is not written without one.

    The third one never has to.  A first input that passes the checks is a source,
    which is compiled with an entry point, or an object, which is the very first to
    be looked into; so what is handed to the linker always begins with an entry
    point, and `run_has_program_body` says when a run fails for the lack of one. -/

namespace AheadOfTime

variable {α : Type}

/-- The failure is that of an executable which lacks its program body. -/
def Failure.LacksBody : Failure → Prop
  | .problem p => p.report.code = .invalidFirstInput
  | .fault _ => False

theorem Failure.not_lacksBody_fault (f : Fault) : ¬ (Failure.fault f).LacksBody := not_false

theorem Failure.IsPlain.not_lacksBody {e : Failure} (h : e.IsPlain) : ¬ e.LacksBody := by
  cases e with
  | problem p => exact h.2
  | fault f => exact not_lacksBody_fault f

/-! ## Steps that need no program body -/

/-- The step does not fail for the lack of a program body. -/
def embodied : Law := fun _ o _ => ∀ e, o = some e → ¬ e.LacksBody

theorem embodied_none (u v : World) : embodied u none v := by
  intro e he
  cases he

theorem embodied_some {e : Failure} (h : ¬ e.LacksBody) (u v : World) :
    embodied u (some e) v := by
  intro e' he
  cases he
  exact h

/-- A step that meets the law and fails does so for another reason. -/
theorem Build.Meets.not_lacksBody {act : Build α} (h : act.Meets embodied) {w v : World}
    {e : Failure} (hrun : act.run w = (.error e, v)) : ¬ e.LacksBody :=
  h.of_run hrun e rfl

/-- No tool is asked for a program body. -/
theorem embodied_hostRun (host : Host) (c : Call) : (host.run c).Meets embodied := by
  intro w
  have hcalled := host.called c w
  generalize (host.run c).run w = outcome at hcalled ⊢
  cases hcalled with
  | unnamed | failed => exact embodied_some (Failure.not_lacksBody_fault _) _ _
  | missing | rejected =>
      refine embodied_some ?_ _ _
      exact nofun
  | answered => exact embodied_none _ _

/-- What follows the look into the ready-made objects needs no program body, the
    glue of an executable apart. -/
theorem bears_embodied (host : Host) (asks : Call → Prop) : embodied.Bears host asks where
  idle := by
    intro w
    exact embodied_none w w
  next := by
    intro u v w o _ hlast
    exact hlast
  disk := by
    intro u v o files h
    exact h
  overrule := by
    intro u v e f _
    exact embodied_some (Failure.not_lacksBody_fault f) u v
  plain := by
    intro w e he
    exact embodied_some he.not_lacksBody w w
  warn := by
    intro n w
    exact embodied_none _ _
  allocate := by
    intro stem extension w e he
    rcases hanswer : ((Build.allocate host stem extension).run w).1 with e' | path
    · rw [hanswer] at he
      cases he
      exact ((Build.allocate_frame host stem extension w).2 e hanswer).not_lacksBody
    · rw [hanswer] at he
      cases he
  call := by
    intro c _
    exact embodied_hostRun host c

/-- A call that comes to nothing asks for no program body. -/
theorem Exchange.not_lacksBody_of_stop? {x : Exchange} {e : Failure} (h : x.stop? = some e) :
    ¬ e.LacksBody := by
  unfold stop? at h
  split at h
  · rw [← Option.some.inj h]
    exact nofun
  · rw [← Option.some.inj h]
    exact Failure.not_lacksBody_fault _
  · split at h
    · rw [← Option.some.inj h]
      exact nofun
    · exact nomatch h

namespace Compiler

theorem embodied_compileAll (c : Compiler) (source : Path) (e : EntryPoint) :
    (c.compileAll source e).Meets embodied := by
  intro w f hf
  rcases hrun : (c.compileAll source e).run w with ⟨answer, v⟩
  rw [hrun] at hf
  obtain rfl := eq_error_of_failure? hf
  obtain ⟨parts, made, written, h⟩ := parted_compileAll hrun
  -- the failure is that of the work for some architecture
  obtain ⟨done, part, others, rfl, -, hpart, -⟩ := h.failed
  cases h.does part (List.mem_append_right _ List.mem_cons_self) with
  | calledOff => exact nomatch hpart
  | made => exact nomatch hpart
  | failed hperformed =>
      obtain rfl := Except.error.inj (Option.some.inj hpart)
      cases hperformed with
      | refused _ _ hplain => exact hplain.not_lacksBody
      | stopped _ _ hstop => exact Exchange.not_lacksBody_of_stop? hstop

theorem embodied_compile (c : Compiler) (source : Path) (output : Option Path) :
    (c.compile source output).Meets embodied := by
  refine (bears_embodied c.host c.MayCall).compile ?_ c.embodied_compileAll source output
  intro w draws
  exact embodied_none _ _

end Compiler

/-! ## The look into the first input -/

/-- The object's symbols were listed, and no entry point is among them. -/
structure Exchange.ShowsNone (x : Exchange) (nm object : Path) : Prop where
  call : x.call = Host.symbolsCall nm object
  listing : ∃ output, x.reply = .exited 0 output ∧ SymbolListing.candidates output = []

theorem Scanned.showsNone {nm object : Path} {scan : Exchange} (h : Scanned nm object none scan) :
    scan.ShowsNone nm object := by
  obtain ⟨hcall, output, u, hreply, hlisting⟩ := h
  exact ⟨hcall, output, hreply, SymbolListing.candidates_of_none hlisting⟩

theorem Host.embodied_scanEntryPoint (host : Host) (nm object : Path) :
    (host.scanEntryPoint nm object).Meets embodied :=
  have hlaw := bears_embodied host fun _ => True
  hlaw.bind (hlaw.call trivial) fun _ _ => hlaw.entryPoint? _ _

namespace Builder

/-- An object is accepted if it has an entry point or need not have one. -/
theorem embodied_settleObject {r : Request} {object : Path} {e : Option EntryPoint}
    (h : e.isSome = true ∨ ¬ (r.kind = .executable ∧ r.inputs.head? = some object)) :
    (settleObject r object e).Meets embodied := by
  intro w
  rw [settleObject]
  by_cases hsome : e.isSome = true
  · rw [if_pos hsome]
    exact embodied_none w w
  · rw [if_neg hsome, if_neg (h.resolve_left hsome)]
    exact embodied_none w _

variable {b : Builder} {r : Request} {layout : Toolchain} {tools : ToolPaths}
  {first : Path} {later : List Path} {w v : World}

/-- Once the first input is settled, no object is missed for a program body. -/
theorem embodied_scanPrebuilt (inputs : List Path) (found : Prebuilt)
    (hsettled : ∀ input, r.inputs.head? = some input →
      input.extension = layout.objectExtension → found.any (·.1 == input) = true) :
    (b.scanPrebuilt r layout tools inputs found).Meets embodied := by
  have hlaw := bears_embodied b.host fun _ => True
  induction inputs generalizing found with
  | nil => exact hlaw.pure found
  | cons input later ih =>
      rw [scanPrebuilt_cons]
      by_cases hskip : input.extension ≠ layout.objectExtension ∨ found.any (·.1 == input)
      · rw [if_pos hskip]
        exact ih found hsettled
      · rw [if_neg hskip]
        refine hlaw.bind (b.host.embodied_scanEntryPoint _ _) fun e _ => hlaw.bind ?_ fun _ _ => ?_
        · -- what is scanned now is not the first input, which is settled
          refine embodied_settleObject (.inr ?_)
          rintro ⟨-, hhead⟩
          rw [not_or, Decidable.not_not] at hskip
          exact hskip.2 (hsettled input hhead hskip.1)
        · refine ih _ ?_
          intro other hother hobject
          rw [List.any_append, hsettled other hother hobject, Bool.true_or]

/-- When the first input has been looked into, the others can be. -/
theorem embodied_scanPrebuilt_later (hinputs : r.inputs = first :: later) (e : Option EntryPoint) :
    (b.scanPrebuilt r layout tools later [(first, e)]).Meets embodied := by
  refine embodied_scanPrebuilt later _ ?_
  intro input hinput _
  rw [hinputs] at hinput
  cases hinput
  simp

/-- **The look into the ready-made objects** fails for the lack of a program body
    only in its first call, if the first input is an object that shows no entry
    point. -/
theorem scanPrebuilt_lacksBody {e : Failure} (hinputs : r.inputs = first :: later)
    (h : (b.scanPrebuilt r layout tools r.inputs []).run w = (.error e, v)) (he : e.LacksBody) :
    e = .problem (.noEntryPointListed first) ∧
      ∃ scan, v.exchanges = w.exchanges ++ [scan] ∧ scan.ShowsNone tools.nm first := by
  rw [hinputs, scanPrebuilt_cons] at h
  by_cases hobject : first.extension = layout.objectExtension
  · rw [if_neg (by simp [hobject])] at h
    rcases hscan : (b.host.scanEntryPoint tools.nm first).run w with ⟨e' | answer, u⟩
    · -- the call itself came to nothing
      rw [run_bind_error hscan] at h
      cases h
      exact absurd he ((b.host.embodied_scanEntryPoint _ _).not_lacksBody hscan)
    · rw [run_bind_ok hscan] at h
      obtain ⟨scan, hexchanges, hscanned⟩ := Host.scanEntryPoint_ok hscan
      by_cases hbody : answer = none ∧ r.kind = .executable
      · obtain ⟨rfl, hkind⟩ := hbody
        rw [settleObject_none, if_pos ⟨hkind, by rw [hinputs]; rfl⟩,
          run_bind_error (Build.run_complain _ u)] at h
        cases h
        exact ⟨rfl, scan, hexchanges, hscanned.showsNone⟩
      · -- the first input is settled, and the others are no program bodies
        have hrest : Build.Meets (do
            settleObject r first answer
            b.scanPrebuilt r layout tools later [(first, answer)]) embodied := by
          refine (bears_embodied b.host fun _ => True).bind (embodied_settleObject ?_)
            fun _ _ => embodied_scanPrebuilt_later hinputs answer
          rw [Option.isSome_iff_ne_none]
          by_cases hnone : answer = none
          · exact .inr fun h => hbody ⟨hnone, h.1⟩
          · exact .inl hnone
        exact absurd he (hrest.not_lacksBody h)
  · rw [if_pos (.inl hobject)] at h
    refine absurd he (Build.Meets.not_lacksBody (embodied_scanPrebuilt later [] ?_) h)
    intro input hinput hobject'
    rw [hinputs] at hinput
    cases hinput
    exact absurd hobject' hobject

/-- An executable whose ready-made objects have been looked into has an entry point
    for its first input, if that one is an object. -/
theorem lookup_of_scanPrebuilt {prebuilt : Prebuilt} (hkind : r.kind = .executable)
    (hinputs : r.inputs = first :: later) (hobject : first.extension = layout.objectExtension)
    (h : (b.scanPrebuilt r layout tools r.inputs []).run w = (.ok prebuilt, v)) :
    ∃ e, prebuilt.lookup first = some (some e) := by
  rw [hinputs, scanPrebuilt_cons, if_neg (by simp [hobject])] at h
  obtain ⟨answer, u, -, h⟩ := run_bind_eq_ok h
  obtain ⟨_, u', hsettle, h⟩ := run_bind_eq_ok h
  cases answer with
  | none =>
      rw [settleObject_none, if_pos ⟨hkind, by rw [hinputs]; rfl⟩] at hsettle
      exact absurd hsettle error_ne_ok
  | some e =>
      obtain ⟨more, -, rfl, -⟩ := scanPrebuilt_ok h
      exact ⟨e, by simp⟩

/-! ## What is handed to the linker -/

/-- A first input that passes the checks of an executable is a source or an
    object. -/
theorem source_or_object_of_check {t : Toolchain} {files : FileTree}
    (hkind : r.kind = .executable) (hinputs : r.inputs = first :: later)
    (hcheck : r.check t files = .ok ()) :
    first.extension = t.sourceExtension ∨ first.extension = t.objectExtension := by
  have hadmissible : r.Admissible t files := by
    rw [r.admissible_iff, ← Condition.settle_eq_ok_iff, ← r.check_eq]
    exact hcheck
  have hin : first ∈ r.inputs := by rw [hinputs]; exact List.mem_cons_self
  have hbody := hadmissible.body hkind first (by rw [hinputs]; rfl)
  have hallowed := (Request.inputs_of_check hcheck first hin).2
  rw [Request.allowedExtensions, hkind] at hallowed
  simpa [OutputKind.isPerInput, hbody] using hallowed

/-- The link inputs of an executable begin with an entry point. -/
theorem head_of_linkInputs {c : Compiler} {prebuilt : Prebuilt} {links : List LinkInput}
    (hinputs : r.inputs = first :: later)
    (hfirst : first.extension = layout.sourceExtension ∨ ∃ e, prebuilt.lookup first = some (some e))
    (h : (b.linkInputs layout c prebuilt r.inputs).run w = (.ok links, v)) :
    ∃ body others, links = body :: others ∧ body.entryPoint.isSome = true := by
  rw [hinputs] at h
  unfold linkInputs at h
  by_cases hsource : first.extension = layout.sourceExtension
  · -- a source is compiled, and gets its entry point
    rw [if_pos hsource] at h
    obtain ⟨object, _, -, h⟩ := run_bind_eq_ok h
    obtain ⟨body, _, hbody, h⟩ := run_bind_eq_ok h
    obtain ⟨others, _, -, h⟩ := run_bind_eq_ok h
    obtain ⟨rfl, -⟩ := run_pure_eq_ok h
    rw [map_eq_pure_bind] at hbody
    obtain ⟨unit, _, -, hbody⟩ := run_bind_eq_ok hbody
    obtain ⟨rfl, -⟩ := run_pure_eq_ok hbody
    exact ⟨_, others, rfl, rfl⟩
  · -- a ready-made object has the entry point that it was found with
    rw [if_neg hsource] at h
    obtain ⟨body, _, hbody, h⟩ := run_bind_eq_ok h
    obtain ⟨others, _, -, h⟩ := run_bind_eq_ok h
    obtain ⟨rfl, -⟩ := run_pure_eq_ok h
    obtain ⟨rfl, -⟩ := run_pure_eq_ok hbody
    obtain ⟨e, he⟩ := hfirst.resolve_left hsource
    refine ⟨_, others, rfl, ?_⟩
    rw [he]
    rfl

/-- The work on a request gets as far as to hand these link inputs to the linker:
    the checks are passed and the tools found, the ready-made objects are looked
    into, the flags are known, and the inputs are put together. -/
inductive Hands (b : Builder) (r : Request) (w : World) (links : List LinkInput) : Prop
  | intro {tools : ToolPaths} {prebuilt : Prebuilt} {exceptions bridging : List String}
      {w₁ w₂ w₃ v : World} :
      r.check b.toolchain w.files = .ok () → b.locator.find b.toolchain w.files = .ok tools →
      (b.readyMade r (r.layout b.toolchain) tools).run (b.begun r w) = (.ok prebuilt, w₁) →
      (b.exceptionFlags r (r.layout b.toolchain) tools).run w₁ = (.ok exceptions, w₂) →
      (bridgingFlags r (r.layout b.toolchain)).run w₂ = (.ok bridging, w₃) →
      (b.linkInputs (r.layout b.toolchain)
        (b.compilerFor r (r.layout b.toolchain) tools exceptions bridging) prebuilt r.inputs).run w₃
          = (.ok links, v) → Hands b r w links

/-- What is known of the first input when the ready-made objects have been looked
    into. -/
theorem settled_of_readyMade {prebuilt : Prebuilt} (hkind : r.kind = .executable)
    (hinputs : r.inputs = first :: later) {files : FileTree}
    (hcheck : r.check b.toolchain files = .ok ())
    (h : (b.readyMade r (r.layout b.toolchain) tools).run w = (.ok prebuilt, v)) :
    first.extension = (r.layout b.toolchain).sourceExtension ∨
      ∃ e, prebuilt.lookup first = some (some e) := by
  rw [Request.sourceExtension_layout]
  refine (source_or_object_of_check hkind hinputs hcheck).imp_right ?_
  intro hobject
  rw [readyMade, hkind] at h
  exact lookup_of_scanPrebuilt hkind hinputs
    (hobject.trans (r.objectExtension_layout b.toolchain).symm) h

theorem Hands.head {links : List LinkInput} (h : b.Hands r w links) (hkind : r.kind = .executable)
    (hinputs : r.inputs = first :: later) :
    ∃ body others, links = body :: others ∧ body.entryPoint.isSome = true := by
  obtain ⟨hcheck, -, hready, -, -, hlinks⟩ := h
  exact head_of_linkInputs hinputs (settled_of_readyMade hkind hinputs hcheck hready) hlinks

/-- An executable is made of link inputs that were handed to the linker. -/
theorem hands_of_ok {result : BuildResult} (h : ((b.run r).run w).1 = .ok result)
    (hkind : r.kind = .executable) : ∃ links, b.Hands r w links := by
  have hran := b.ran r w
  generalize (b.run r).run w = outcome at hran h
  cases hran with
  | built files hworked =>
      have hwork := hworked.work
      rw [buildArtifacts_eq] at hwork
      obtain ⟨prebuilt, _, hready, hwork⟩ := run_bind_eq_ok hwork
      obtain ⟨exceptions, _, hexceptions, hwork⟩ := run_bind_eq_ok hwork
      obtain ⟨bridging, _, hbridging, hwork⟩ := run_bind_eq_ok hwork
      rw [produce, hkind] at hwork
      obtain ⟨links, _, hlinks, -⟩ := run_bind_eq_ok hwork
      exact ⟨links, hworked.check, hworked.find, hready, hexceptions, hbridging, hlinks⟩
  | _ => cases h

/-! ## Whole builds -/

/-- Link inputs that begin with an entry point have glue. -/
theorem glue_of_head {links others : List LinkInput} {body : LinkInput} {p : Problem}
    (hlinks : links = body :: others) (hbody : body.entryPoint.isSome = true) :
    Glue.ofExecutable links ≠ .error p := by
  obtain ⟨e, he⟩ := Option.isSome_iff_exists.mp hbody
  rw [hlinks, Glue.ofExecutable, he]
  exact nofun

/-- **The work on an executable** fails for the lack of a program body only where
    the ready-made objects are looked into. -/
theorem Worked.lacksBody {e : Failure} (h : b.Worked r w tools (.error e) v) (he : e.LacksBody)
    (hkind : r.kind = .executable) (hinputs : r.inputs = first :: later) :
    (b.readyMade r (r.layout b.toolchain) tools).run (b.begun r w) = (.error e, v) := by
  have hwork := h.work
  rw [buildArtifacts_eq] at hwork
  rcases hready : (b.readyMade r (r.layout b.toolchain) tools).run (b.begun r w)
    with ⟨e' | prebuilt, u⟩
  · rw [run_bind_error hready] at hwork
    cases hwork
    rfl
  · rw [run_bind_ok hready] at hwork
    have hlaw := bears_embodied b.host (b.MayFollow r (r.layout b.toolchain) tools)
    -- behind the look, the link inputs begin with an entry point, so that the glue has one
    have hrest : Build.Meets (do
        let exceptions ← b.exceptionFlags r (r.layout b.toolchain) tools
        let bridging ← bridgingFlags r (r.layout b.toolchain)
        b.produce r (r.layout b.toolchain)
          (b.compilerFor r (r.layout b.toolchain) tools exceptions bridging)
          (b.linkerFor r (r.layout b.toolchain) tools) prebuilt) embodied := by
      refine hlaw.bind hlaw.exceptionFlags fun exceptions _ =>
        hlaw.bind (hlaw.bridgingFlags r _) fun bridging _ => ?_
      refine hlaw.produce rfl (Compiler.embodied_compile _) ?_
      rintro - links ⟨u, u', hlinks⟩ p hp
      obtain ⟨body, others, hhead, hbody⟩ := head_of_linkInputs hinputs
        (settled_of_readyMade hkind hinputs h.check hready) hlinks
      exact absurd hp (glue_of_head hhead hbody)
    exact absurd he (hrest.not_lacksBody hwork)

/-- The condition of a request that fails for the lack of a program body. -/
theorem library_of_check {t : Toolchain} {files : FileTree} {e : Failure}
    (hinputs : r.inputs = first :: later) (hcheck : r.check t files = .error e)
    (he : e.LacksBody) : e = .problem (.libraryAsProgramBody first) ∧
      first.extension ∈ t.libraryExtensions := by
  rw [r.check_eq, Condition.settle_eq_error_iff] at hcheck
  obtain ⟨before, c, after, hconditions, -, hc, rfl⟩ := hcheck
  have hin : c ∈ r.conditions t files := by
    rw [hconditions]
    exact List.mem_append_right _ List.mem_cons_self
  -- only one of the conditions is about the program body
  have hbody : ∀ c ∈ r.conditions t files, c.problem.report.code = .invalidFirstInput →
      c = Request.bodyCondition t first := by
    simp only [Request.conditions, List.forall_mem_append]
    refine ⟨⟨⟨⟨?_, ?_⟩, ?_⟩, ?_⟩, ?_⟩
    · simp [Request.sdkCondition, Problem.report, Report.of]
    · cases r.static <;> simp [Request.libraryCondition, Problem.report, Report.of]
    · split <;> simp [Request.outputCondition, Problem.report, Report.of]
    · rw [List.forall_mem_flatMap]
      simp [Request.inputConditions, Problem.report, Report.of]
    · split <;> simp [hinputs]
  rw [Condition.failure] at he ⊢
  rcases hanswer : c.answer with f | yes
  · rw [hanswer] at he
    exact absurd he (Failure.not_lacksBody_fault f)
  · rw [hanswer] at he
    obtain rfl := hbody c hin he
    refine ⟨rfl, Decidable.byContradiction fun hother => hc ?_⟩
    simp [Request.bodyCondition, Condition.Holds, hother]

/-- How a run of an executable fails for the lack of a program body: the first
    input is a dynamic library, and no tool was called; or it is an object that
    shows no entry point, and that was the only call. -/
theorem lacksBody_cases {e : Failure} (hkind : r.kind = .executable)
    (hinputs : r.inputs = first :: later) (h : ((b.run r).run w).1 = .error e)
    (he : e.LacksBody) :
    e = .problem (.libraryAsProgramBody first) ∧ ((b.run r).run w).2.exchanges = w.exchanges ∧
        first.extension ∈ b.toolchain.libraryExtensions ∨
      e = .problem (.noEntryPointListed first) ∧ ∃ tools scan,
        b.locator.find b.toolchain w.files = .ok tools ∧
        ((b.run r).run w).2.exchanges = w.exchanges ++ [scan] ∧
        scan.ShowsNone tools.nm first := by
  have hran := b.ran r w
  generalize (b.run r).run w = outcome at hran h ⊢
  -- neither tools that are not found nor a fault are for the lack of a program body
  cases hran with
  | refused hcheck =>
      cases h
      obtain ⟨rfl, hlibrary⟩ := library_of_check hinputs hcheck he
      exact .inl ⟨rfl, rfl, hlibrary⟩
  | unequipped _ hfind =>
      cases h
      exact absurd he (Locator.isPlain_of_find hfind).not_lacksBody
  | @failed tools e' v files hworked =>
      cases h
      have hready := hworked.lacksBody he hkind hinputs
      rw [readyMade, hkind] at hready
      obtain ⟨rfl, scan, hexchanges, hshows⟩ := scanPrebuilt_lacksBody hinputs hready he
      exact .inr ⟨rfl, tools, scan, hworked.find,
        (World.exchanges_noting _ v).trans hexchanges, hshows⟩
  | stuck f files hworked =>
      cases h
      exact absurd he (Failure.not_lacksBody_fault f)
  | built files hworked => cases h

end Builder

/-- **An executable that is linked has its program body.**  If a run of an
    executable fails for the lack of one, then either no tool was called and the
    first input is a dynamic library, or there was one call, which listed the
    symbols of the first input and showed no entry point.  What is handed to the
    linker begins with an entry point, so that the linker's own check never
    fails. -/
theorem run_has_program_body (b : Builder) {f : RequestFields} {r : Request}
    (h : Request.ofFields f = .ok r) (hkind : r.kind = .executable) (w : World) :
    ∃ first later, r.inputs = first :: later ∧
      (∀ p, ((b.run r).run w).1 = .error (.problem p) → p.report.code = .invalidFirstInput →
        ((b.run r).run w).2.exchanges = w.exchanges ∧
            first.extension ∈ b.toolchain.libraryExtensions ∨
          ∃ tools scan, b.locator.find b.toolchain w.files = .ok tools ∧
            ((b.run r).run w).2.exchanges = w.exchanges ++ [scan] ∧
            scan.ShowsNone tools.nm first) ∧
      (∀ links, b.Hands r w links →
        ∃ body others, links = body :: others ∧ body.entryPoint.isSome = true) ∧
      ∀ input, ((b.run r).run w).1 ≠ .error (.problem (.noProgramBody input)) := by
  obtain ⟨first, later, hinputs⟩ := List.exists_cons_of_ne_nil (Request.inputs_ne_nil h)
  refine ⟨first, later, hinputs, ?_, ?_, ?_⟩
  · intro p hp hcode
    rcases Builder.lacksBody_cases hkind hinputs hp hcode with ⟨-, hlibrary⟩ | ⟨-, hobject⟩
    · exact .inl hlibrary
    · exact .inr hobject
  · intro links hlinks
    exact hlinks.head hkind hinputs
  · intro input hp
    rcases Builder.lacksBody_cases hkind hinputs hp rfl with ⟨hother, -⟩ | ⟨hother, -⟩
    · cases hother
    · cases hother

/-- The fields of a request for an executable of these inputs. -/
def programFields (inputs : List Path) : RequestFields where
  kind := "executable"
  inputs

/-- The request of these fields. -/
def programRequest (inputs : List Path) : Request where
  kind := .executable
  inputs
  output := none
  archs := [.x86_64]
  sdk := none
  frameworks := []
  linkerFlags := []
  static := false
  verbose := false
  jobs := 1

/-- An object in first place that shows no entry point stops the build, although it
    is given again behind a source; the source in first place is linked. -/
theorem run_has_program_body_object :
    Request.ofFields (programFields [.ofString "b.o", .ofString "a.rb", .ofString "b.o"])
        = .ok (programRequest [.ofString "b.o", .ofString "a.rb", .ofString "b.o"]) ∧
      (∃ scan, ((idleBuilder.run (programRequest [.ofString "b.o", .ofString "a.rb",
          .ofString "b.o"])).run mixedWorld).2.exchanges = mixedWorld.exchanges ++ [scan] ∧
        scan.ShowsNone (.ofString "nm") (.ofString "b.o")) ∧
      ∃ body others, idleBuilder.Hands (programRequest [.ofString "a.rb", .ofString "b.o"])
          mixedWorld (body :: others) ∧ body.entryPoint.isSome = true := by
  refine ⟨rfl, ?_, ?_⟩
  · obtain ⟨first, later, hinputs, hfails, -⟩ := run_has_program_body idleBuilder
      (f := programFields [.ofString "b.o", .ofString "a.rb", .ofString "b.o"]) rfl rfl mixedWorld
    have hcode : (failure? ((idleBuilder.run (programRequest [.ofString "b.o", .ofString "a.rb",
        .ofString "b.o"])).run mixedWorld).1).bind Failure.code? = some .invalidFirstInput := by
      decide +kernel
    cases hinputs
    rcases hanswer : ((idleBuilder.run (programRequest [.ofString "b.o", .ofString "a.rb",
        .ofString "b.o"])).run mixedWorld).1 with (p | f) | result
    · rw [hanswer] at hcode
      rcases hfails p hanswer (Option.some.inj hcode) with ⟨-, hlibrary⟩ | ⟨tools, scan, hfind, h⟩
      · exact absurd hlibrary (by decide +kernel)
      · cases hfind
        exact ⟨scan, h⟩
    · rw [hanswer] at hcode
      cases hcode
    · rw [hanswer] at hcode
      cases hcode
  · obtain ⟨first, later, -, -, hhead, -⟩ := run_has_program_body idleBuilder
      (f := programFields [.ofString "a.rb", .ofString "b.o"]) rfl rfl mixedWorld
    have hanswers : ((idleBuilder.run (programRequest [.ofString "a.rb",
        .ofString "b.o"])).run mixedWorld).1.toOption.isSome = true := by
      decide +kernel
    obtain ⟨result, hresult⟩ := Option.isSome_iff_exists.mp hanswers
    obtain ⟨links, hlinks⟩ := Builder.hands_of_ok (eq_ok_of_toOption hresult) rfl
    obtain ⟨body, others, rfl, hbody⟩ := hhead links hlinks
    exact ⟨body, others, hlinks, hbody⟩

end AheadOfTime
