import AheadOfTime.Proofs.Chain
import AheadOfTime.Proofs.Making

/-! # The plan of a build

    A request fixes, before anything runs, which tools are called for which
    inputs and architectures, and in which order.  `Request.plan` writes this
    plan down in phases: a phase is one call, or the calls of several architectures
    that are compiled side by side, where each architecture has its calls in their
    order and the architectures get between each other.  `run_obeys_plan` says that
    every run goes through the plan phase by phase, through all of it if the run
    answers, and that no phase is begun behind a call that came to nothing.

    A step of a build obeys a plan in every world or not at all (`Follows`), so
    the plan of two steps is the one plan behind the other (`Follows.bind`) and
    the plan of a loop over inputs is put together input by input. -/

namespace AheadOfTime

variable {α β : Type}

/-! ## Labels and plans -/

/-- What a call is made for: its stage, and the input and the architecture
    under which it is filed. -/
structure Label where
  stage : Stage
  input : Option String := none
  arch : Option String := none
  deriving DecidableEq, Repr

/-- What a call is made for. -/
def Call.label (c : Call) : Label := ⟨c.stage, c.input, c.arch⟩

/-- A phase of a plan: one call, or the calls of several strands side by side. -/
inductive Phase where
  | one (label : Label)
  | together (strands : List (List Label))

/-- What the calls of a phase are made for, one strand behind the other. -/
def Phase.labels : Phase → List Label
  | one label => [label]
  | together strands => strands.flatten

/-- Calls that are made one after the other. -/
def sequence (labels : List Label) : List Phase := labels.map .one

/-- The calls that compile a source for one architecture. -/
def archPlan (input : Path) (arch : Arch) : List Label :=
  [.frontend, .backend, .assemble].map fun stage => ⟨stage, some input.toString, some arch.name⟩

/-- The calls that compile a source: three for every architecture, side by side if
    the architectures are `pooled`, and one that merges the objects. -/
def compilePlan (pooled : Bool) (archs : List Arch) (input : Path) : List Phase :=
  (if pooled then [.together (archs.map (archPlan input))]
    else sequence (archs.flatMap (archPlan input)))
  ++ sequence [⟨.merge, some input.toString, none⟩]

/-- The calls that make an output out of objects. -/
def finishPlan (glue output : String) : List Phase :=
  sequence [⟨.glue, some glue, none⟩, ⟨.link, some output, none⟩, ⟨.strip, some output, none⟩]

namespace Request

/-- The last name of what is made from an input: that of the request's output,
    or else `name`. -/
def outputName (r : Request) (name : String) : String := (r.output.map Path.name).getD name

/-- The calls that look into ready-made objects, each one once. -/
def scanPlan (t : Toolchain) (inputs : List Path) : List Phase :=
  sequence ((distinct (inputs.filter (·.extension = t.objectExtension))).map fun input =>
    ⟨.symbols, some input.toString, none⟩)

/-- The question to the back end, if there is something to compile. -/
def probePlan (t : Toolchain) (inputs : List Path) : List Phase :=
  sequence (if inputs.any (·.extension = t.sourceExtension) then [⟨.probe, none, none⟩] else [])

/-- The calls that compile the sources among the inputs. -/
def sourcesPlan (t : Toolchain) (pooled : Bool) (archs : List Arch) (inputs : List Path) :
    List Phase :=
  (inputs.filter (·.extension = t.sourceExtension)).flatMap (compilePlan pooled archs)

/-- Whether the request has its architectures compiled side by side. -/
def isPooled (r : Request) : Bool := r.jobs > 1 && r.archs.length > 1

/-- The last name of an executable without a path of its own: that of its first
    input, less the extension. -/
def programName (r : Request) : String := r.outputName ((r.inputs.head?.map Path.stem).getD "")

/-- The calls that a request is built with.  What is made from sources alone
    takes the probe and then every input in turn; what is linked takes a look
    into the ready-made objects, a probe if there is a source, the sources in
    turn, and one link in the end. -/
def plan (r : Request) (t : Toolchain) : List Phase :=
  match r.kind with
  | .object => .one ⟨.probe, none, none⟩ :: r.inputs.flatMap (compilePlan r.isPooled r.archs)
  | .bundle => .one ⟨.probe, none, none⟩ :: r.inputs.flatMap fun input =>
      compilePlan r.isPooled r.archs input
      ++ finishPlan input.stem (r.outputName (input.stem ++ t.bundleExtension))
  | .dylib => scanPlan t r.inputs ++ probePlan t r.inputs
      ++ sourcesPlan t r.isPooled r.archs r.inputs
      ++ finishPlan ((r.output.map Path.stem).getD "") (r.outputName "")
  | .executable => scanPlan t r.inputs ++ probePlan t r.inputs
      ++ sourcesPlan t r.isPooled r.archs r.inputs
      ++ finishPlan r.programName r.programName

end Request

/-! ## Obeying a plan -/

namespace Phase

/-- The calls made are those of the phase, and behind each one the build could go
    on. -/
inductive Done : Phase → List Exchange → Prop where
  | one {x : Exchange} : x.LetsGoOn → Done (one x.call.label) [x]
  | together {shares : List (List Exchange)} {made : List Exchange} :
      (∀ share ∈ shares, ∀ x ∈ share, x.LetsGoOn) → Interleaves shares made →
      Done (together (shares.map fun share => share.map (·.call.label))) made

/-- The calls made are some of those of the phase: each strand is begun and went on
    behind its calls, apart from a last one that stopped it. -/
inductive Broken : Phase → List Exchange → Prop where
  | idle (p : Phase) : Broken p []
  | one (x : Exchange) : Broken (one x.call.label) [x]
  | together {shares : List (List Label × List Exchange)} {made : List Exchange} :
      (∀ s ∈ shares, s.2.map (·.call.label) <+: s.1 ∧ ∀ x ∈ s.2.dropLast, x.LetsGoOn) →
      Interleaves (shares.map Prod.snd) made → Broken (together (shares.map Prod.fst)) made

end Phase

/-- The calls made go through the plan phase by phase, through all of it if the work
    is done, and else up to a phase in which it stopped. -/
inductive Obeys (isDone : Prop) : List Phase → List Exchange → Prop where
  | done : Obeys isDone [] []
  | broken {p : Phase} {plan : List Phase} {made : List Exchange} : ¬ isDone →
      p.Broken made → Obeys isDone (p :: plan) made
  | next {p : Phase} {plan : List Phase} {made more : List Exchange} : p.Done made →
      Obeys isDone plan more → Obeys isDone (p :: plan) (made ++ more)

namespace Obeys

variable {isDone isDone' : Prop} {p q : List Phase} {made more : List Exchange}

/-- Whether the work is done may be weakened. -/
theorem mono (h : Obeys isDone p made) (hdone : isDone' → isDone) : Obeys isDone' p made := by
  induction h with
  | done => exact .done
  | broken hnot hmade => exact .broken (fun hdone' => hnot (hdone hdone')) hmade
  | next hmade _ ih => exact .next hmade ih

/-- One plan behind another that has been gone through. -/
theorem append (h : Obeys True p made) (h' : Obeys isDone q more) :
    Obeys isDone (p ++ q) (made ++ more) := by
  induction h with
  | done => exact h'
  | broken hnot => exact absurd trivial hnot
  | next hmade _ ih =>
      rw [List.append_assoc]
      exact .next hmade ih

/-- No call at all obeys any plan. -/
theorem nil (hnot : ¬ isDone) (p : List Phase) : Obeys isDone p [] := by
  cases p with
  | nil => exact .done
  | cons first later => exact .broken hnot (.idle first)

/-- Behind a phase in which the work stopped nothing is begun. -/
theorem cut (hnot : ¬ isDone) (h : Obeys isDone p made) (q : List Phase) :
    Obeys isDone (p ++ q) made := by
  induction h with
  | done => exact .nil hnot q
  | broken _ hmade => exact .broken hnot hmade
  | next hmade _ ih => exact .next hmade ih

/-- A plan that was gone through was gone through part by part. -/
theorem split (h : Obeys True (p ++ q) made) :
    ∃ first second, made = first ++ second ∧ Obeys True p first ∧ Obeys True q second := by
  induction p generalizing made with
  | nil => exact ⟨[], made, rfl, .done, h⟩
  | cons phase later ih =>
      obtain _ | ⟨hnot, -⟩ | ⟨hphase, hlater⟩ := h
      · exact absurd trivial hnot
      · obtain ⟨first, second, rfl, hfirst, hsecond⟩ := ih hlater
        exact ⟨_ ++ first, second, (List.append_assoc _ _ _).symm, .next hphase hfirst, hsecond⟩

end Obeys

/-- Whatever the world, `act` adds calls that obey the plan. -/
def Follows (plan : List Phase) (act : Build α) : Prop :=
  ∀ w, ∃ made, (act.run w).2.exchanges = w.exchanges ++ made ∧
    Obeys (∃ a, (act.run w).1 = .ok a) plan made

/-- A step that calls no tool follows the empty plan. -/
theorem Build.Quiet.follows {act : Build α} (h : act.Quiet) : Follows [] act := by
  intro w
  refine ⟨[], ?_, .done⟩
  rw [h w, List.append_nil]

/-- **One step behind the other**: their plans are made one behind the other. -/
theorem Follows.bind {p q : List Phase} {x : Build α} {f : α → Build β}
    (hx : Follows p x) (hf : ∀ a, (∃ w v, x.run w = (.ok a, v)) → Follows q (f a)) :
    Follows (p ++ q) (x >>= f) := by
  intro w
  obtain ⟨made, hmade, hobeys⟩ := hx w
  rcases hrun : x.run w with ⟨failure | a, v⟩
  · -- the first step stops the work, and the plan of the second one is not begun
    rw [run_bind_error hrun]
    rw [hrun] at hmade hobeys
    have hnot : ¬ ∃ b : β, (.error failure : Except Failure β) = .ok b := fun ⟨_, hb⟩ => nomatch hb
    exact ⟨made, hmade, .cut hnot (hobeys.mono fun hdone => absurd hdone hnot) q⟩
  · obtain ⟨more, hmore, hobeys'⟩ := hf a ⟨w, v, hrun⟩ v
    rw [run_bind_ok hrun]
    rw [hrun] at hmade hobeys
    refine ⟨made ++ more, ?_, (hobeys.mono fun _ => ⟨a, rfl⟩).append hobeys'⟩
    rw [hmore, hmade, List.append_assoc]

/-- A step that calls no tool may stand in front. -/
theorem Build.Quiet.bind_follows {q : List Phase} {x : Build α} {f : α → Build β}
    (hx : x.Quiet) (hf : ∀ a, (∃ w v, x.run w = (.ok a, v)) → Follows q (f a)) :
    Follows q (x >>= f) :=
  hx.follows.bind hf

/-- A step that calls no tool may stand behind. -/
theorem Follows.bind_quiet {p : List Phase} {x : Build α} {f : α → Build β}
    (hx : Follows p x) (hf : ∀ a, (f a).Quiet) : Follows p (x >>= f) := by
  have h := hx.bind fun a _ => (hf a).follows
  rw [List.append_nil] at h
  exact h

/-! ## Calls -/

/-- A command that is checked, or only asks a question, is a plan of one call. -/
theorem follows_hostRun (host : Host) {c : Call} (hargv : c.argv ≠ [])
    (hc : c.isChecked = true ∨ c.stage = .probe) : Follows [.one c.label] (host.run c) := by
  intro w
  refine ⟨[host.exchanged c w], host.exchanges_hostRun hargv w, ?_⟩
  rcases hrun : ((host.run c).run w).1 with failure | result
  · exact .broken (fun ⟨_, hb⟩ => nomatch hb) (.one (host.exchanged c w))
  · refine .next (.one (x := host.exchanged c w) ?_) .done
    obtain ⟨_, status, output, -, hreply, hzero, -⟩ := Host.run_hostRun_eq_ok (Prod.ext hrun rfl)
    rcases hc with hchecked | hprobe
    · exact .inr ⟨output, by rw [hreply, hzero hchecked]⟩
    · exact .inl hprobe

/-- A scan for the entry point is one call, for the object. -/
theorem follows_scanEntryPoint (host : Host) (nm object : Path) :
    Follows [.one ⟨.symbols, some object.toString, none⟩] (host.scanEntryPoint nm object) :=
  (follows_hostRun host (List.cons_ne_nil _ _) (Or.inl rfl)).bind_quiet
    fun _ => (SymbolListing.still_entryPoint? _ _).quiet

theorem follows_probeExceptionFlags (host : Host) (backend : Path) :
    Follows [.one ⟨.probe, none, none⟩] (host.probeExceptionFlags backend) :=
  (follows_hostRun host (List.cons_ne_nil _ _) (Or.inr rfl)).bind_quiet
    fun _ => (Build.still_pure _).quiet

/-! ## Compiling -/

/-- Calls that are checked let the work go on unless they end in a failure. -/
theorem letsGoOn_of_stop? {cs : List Call} {made : List Exchange}
    (hchecked : ∀ c ∈ cs, c.isChecked = true) (hcalls : made.map (·.call) <+: cs) {x : Exchange}
    (hx : x ∈ made) (hstop : x.stop? = none) : x.LetsGoOn :=
  .inr (Exchange.succeeded_of_stop? (hchecked _ (hcalls.subset (List.mem_map_of_mem hx))) hstop)

namespace Performed

variable {cs : List Call} {made : List Exchange}

/-- Calls that were all made, and let the work go on, are a plan gone through. -/
theorem obeys (h : Performed cs made none) (hchecked : ∀ c ∈ cs, c.isChecked = true) :
    Obeys True (sequence (cs.map Call.label)) made := by
  obtain ⟨rfl, hgoesOn⟩ | _ | _ := h
  have hall : ∀ x ∈ made, x.LetsGoOn := fun x hx =>
    letsGoOn_of_stop? hchecked (List.prefix_refl _) hx (hgoesOn x hx)
  clear hchecked hgoesOn
  induction made with
  | nil => exact .done
  | cons x later ih =>
      obtain ⟨hx, hlater⟩ := List.forall_mem_cons.mp hall
      exact .next (.one hx) (ih hlater)

/-- Calls that were made up to a failure are a plan that was broken off. -/
theorem obeys_of_failure {f : Failure} (h : Performed cs made (some f))
    (hchecked : ∀ c ∈ cs, c.isChecked = true) :
    Obeys False (sequence (cs.map Call.label)) made := by
  obtain ⟨later, rfl⟩ := h.calls
  have hprefix : ∀ {made : List Exchange}, made.map (·.call) <+: made.map (·.call) ++ later →
      (∀ x ∈ made, x.stop? = none) → Performed (made.map (·.call)) made none :=
    fun _ hgoesOn => .all rfl hgoesOn
  rw [sequence, List.map_append, List.map_append]
  refine .cut not_false ?_ _
  have hearlier : ∀ {before : List Exchange}, (∀ x ∈ before, x ∈ made ∧ x.stop? = none) →
      Obeys True (sequence ((before.map (·.call)).map Call.label)) before := by
    intro before hbefore
    refine (Performed.all rfl fun x hx => (hbefore x hx).2).obeys fun c hc => ?_
    obtain ⟨x, hx, rfl⟩ := List.mem_map.mp hc
    exact hchecked _ (List.mem_append_left _ (List.mem_map_of_mem (hbefore x hx).1))
  cases h with
  | refused _ hgoesOn _ => exact (hearlier fun x hx => ⟨hx, hgoesOn x hx⟩).mono fun _ => trivial
  | @stopped before x _ _ hgoesOn _ =>
      rw [List.map_append, List.map_append]
      rw [List.map_append]
      exact (hearlier fun y hy => ⟨List.mem_append_left _ hy, hgoesOn y hy⟩).append
        (.broken not_false (.one x))

end Performed

namespace Compiler

variable {c : Compiler} {source : Path} {e : EntryPoint}

/-- All three calls for an architecture are checked. -/
theorem checked_archCalls (c : Compiler) (source : Path) (e : EntryPoint) (arch : Arch)
    (bitcode assembly object : Path) :
    ∀ call ∈ c.archCalls source e arch bitcode assembly object, call.isChecked = true := by
  simp [archCalls, frontendCall, backendCall, assembleCall]

theorem label_archCalls (c : Compiler) (source : Path) (e : EntryPoint) (arch : Arch)
    (bitcode assembly object : Path) :
    (c.archCalls source e arch bitcode assembly object).map Call.label = archPlan source arch := rfl

/-- The exchanges of an architecture are a part of its plan, and the work goes on
    behind them apart from a last one. -/
theorem Does.part {p : Part} (h : c.Does source e p) :
    p.made.map (·.call.label) <+: archPlan source p.arch ∧
      ∀ x ∈ p.made.dropLast, x.LetsGoOn := by
  have hperformed : ∀ {bitcode assembly object : Path} {o : Option Failure},
      Performed (c.archCalls source e p.arch bitcode assembly object) p.made o →
      p.made.map (·.call.label) <+: archPlan source p.arch ∧
        ∀ x ∈ p.made.dropLast, x.LetsGoOn := by
    intro bitcode assembly object o h
    refine ⟨?_, fun x hx => letsGoOn_of_stop? (c.checked_archCalls source e p.arch _ _ _) h.calls
      (List.dropLast_subset _ hx) (h.goesOn x hx)⟩
    have hlabels := h.calls.map Call.label
    rw [List.map_map, label_archCalls] at hlabels
    exact hlabels
  cases h with
  | calledOff => exact ⟨List.nil_prefix, List.forall_mem_nil _⟩
  | made h => exact hperformed h
  | failed h => exact hperformed h

/-- An architecture with an object has gone through its plan. -/
theorem Does.whole {p : Part} {object : Path} (h : c.Does source e p)
    (hobject : p.outcome = some (.ok object)) :
    p.made.map (·.call.label) = archPlan source p.arch ∧ ∀ x ∈ p.made, x.LetsGoOn := by
  cases h with
  | calledOff => exact nomatch hobject
  | failed => exact nomatch hobject
  | @made arch _ _ _ made h =>
      obtain ⟨hcalls, hgoesOn⟩ | _ | _ := h
      refine ⟨?_, fun x hx => letsGoOn_of_stop?
        (hcalls.symm ▸ c.checked_archCalls source e arch _ _ _) (List.prefix_refl _) hx
        (hgoesOn x hx)⟩
      rw [← label_archCalls c source e arch, ← hcalls, List.map_map]
      rfl

/-- Architectures that all have their objects have gone through their plans. -/
theorem obeys_of_made {parts : List Part} (h : ∀ p ∈ parts, c.Does source e p)
    (hmade : ∀ p ∈ parts, ∃ object, p.outcome = some (.ok object)) :
    Obeys True (sequence ((parts.map Part.arch).flatMap (archPlan source)))
      (parts.map Part.made).flatten := by
  induction parts with
  | nil => exact .done
  | cons p later ih =>
      obtain ⟨hp, hlater⟩ := List.forall_mem_cons.mp h
      obtain ⟨⟨object, hobject⟩, hrest⟩ := List.forall_mem_cons.mp hmade
      rw [List.map_cons, List.flatMap_cons, sequence, List.map_append]
      refine Obeys.append ?_ (ih hlater hrest)
      cases hp with
      | calledOff => exact nomatch hobject
      | failed => exact nomatch hobject
      | @made arch bitcode assembly object _ hperformed =>
          rw [← label_archCalls c source e arch bitcode assembly object]
          exact hperformed.obeys (c.checked_archCalls source e arch bitcode assembly object)

/-- Architectures that were compiled one after the other have gone through their
    plans in turn, up to the first failure. -/
theorem Parted.obeys_inTurn {w v : World} {answer : Except Failure (List Path)}
    {parts : List Part} {made : List Exchange} {written : Log}
    (h : c.Parted source e w answer v parts made written) (hturn : c.isPooled = false) :
    Obeys (∃ objects, answer = .ok objects)
      (sequence (c.archs.flatMap (archPlan source))) made := by
  rw [← h.archs, (h.inTurn hturn).1]
  cases answer with
  | ok objects => exact (obeys_of_made h.does h.answered).mono fun _ => trivial
  | error f =>
      have hnot : ¬ ∃ found, (.error f : Except Failure (List Path)) = .ok found :=
        fun ⟨_, hb⟩ => nomatch hb
      obtain ⟨done, p, others, rfl, hdone, hp, hothers⟩ := h.failed
      obtain ⟨hdoes, hlater⟩ := List.forall_mem_append.mp h.does
      have hpart := (List.forall_mem_cons.mp hlater).1
      -- what comes behind the failure was not begun
      have hidle : (others.map Part.made).flatten = [] :=
        List.flatten_eq_nil_iff.mpr (List.forall_mem_map.mpr (hothers hturn))
      rw [List.map_append, List.map_append, List.flatten_append, List.flatMap_append,
        List.map_cons, List.map_cons, List.flatten_cons, List.flatMap_cons, hidle,
        List.append_nil, sequence, List.map_append, List.map_append]
      refine Obeys.append (obeys_of_made hdoes hdone) (.cut hnot ?_ _)
      cases hpart with
      | calledOff => exact nomatch hp
      | made => exact nomatch hp
      | @failed arch bitcode assembly object own _ hperformed =>
          rw [← label_archCalls c source e arch bitcode assembly object]
          exact (hperformed.obeys_of_failure
            (c.checked_archCalls source e arch bitcode assembly object)).mono
              fun hdone => absurd hdone hnot

/-- Architectures that were compiled side by side have gone through their plans
    together, each as far as it came. -/
theorem Parted.obeys_together {w v : World} {answer : Except Failure (List Path)}
    {parts : List Part} {made : List Exchange} {written : Log}
    (h : c.Parted source e w answer v parts made written) :
    Obeys (∃ objects, answer = .ok objects) [.together (c.archs.map (archPlan source))] made := by
  have harchs : c.archs.map (archPlan source) = parts.map fun p => archPlan source p.arch := by
    rw [← h.archs, List.map_map]
    rfl
  rw [harchs]
  cases answer with
  -- some part may have been cut short, and nothing is known to be whole
  | error f =>
      let shares : List (List Label × List Exchange) :=
        parts.map fun p => (archPlan source p.arch, p.made)
      have hwoven : Interleaves (shares.map Prod.snd) made := by
        rw [List.map_map]
        exact h.woven
      have hshares : (Phase.together (shares.map Prod.fst)).Broken made :=
        .together (List.forall_mem_map.mpr fun p hp => (h.does p hp).part) hwoven
      rw [List.map_map] at hshares
      exact .broken (fun ⟨_, hb⟩ => nomatch hb) hshares
  | ok objects =>
      -- every part has its object, so all its calls were made
      have hwhole : ∀ p ∈ parts, p.made.map (·.call.label) = archPlan source p.arch ∧
          ∀ x ∈ p.made, x.LetsGoOn := by
        intro p hp
        obtain ⟨object, hobject⟩ := h.answered p hp
        exact (h.does p hp).whole hobject
      have hlabels : (parts.map fun p => archPlan source p.arch)
          = (parts.map Part.made).map fun share => share.map (·.call.label) := by
        rw [List.map_map]
        exact List.map_congr_left fun p hp => (hwhole p hp).1.symm
      rw [hlabels, ← List.append_nil made]
      exact .next (.together (List.forall_mem_map.mpr fun p hp => (hwhole p hp).2) h.woven) .done

end Compiler

/-- The architectures of a compiler are compiled as `compilePlan` says. -/
theorem follows_compileAll (c : Compiler) (source : Path) (e : EntryPoint) :
    Follows (if c.isPooled then [.together (c.archs.map (archPlan source))]
      else sequence (c.archs.flatMap (archPlan source))) (c.compileAll source e) := by
  intro w
  rcases hrun : (c.compileAll source e).run w with ⟨answer, v⟩
  obtain ⟨parts, made, _, hparted⟩ := Compiler.parted_compileAll hrun
  refine ⟨made, hparted.recounts.exchanges, ?_⟩
  cases hpooled : c.isPooled with
  | false =>
      rw [if_neg Bool.false_ne_true]
      exact hparted.obeys_inTurn hpooled
  | true =>
      rw [if_pos rfl]
      exact hparted.obeys_together

/-- A merge is one call, for the source. -/
theorem follows_mergeObjects (host : Host) (lipo : Path) (objects : List Path) (output : Path)
    (input : Option String) :
    Follows [.one ⟨.merge, input, none⟩] (host.mergeObjects lipo objects output input) := by
  have merge : Follows [.one ⟨.merge, input, none⟩] (do
      Build.onDisk (Disk.makeDirectories output.parent)
      let _ ← host.run (Host.mergeCall lipo objects output input)
      return output) := by
    refine (Build.quiet_onDisk _).bind_follows fun _ _ => ?_
    have merge := follows_hostRun host (c := Host.mergeCall lipo objects output input)
      (by simp [Host.mergeCall]) (Or.inl rfl)
    exact merge.bind_quiet fun _ => (Build.still_pure _).quiet
  unfold Host.mergeObjects
  by_cases h : objects = []
  · rw [if_pos h]
    exact (Build.still_complain _).quiet.bind_follows fun _ _ => merge
  · rw [if_neg h]
    exact merge

/-- A source is compiled as `compilePlan` says. -/
theorem follows_compile (c : Compiler) (source : Path) (output : Option Path) :
    Follows (compilePlan c.isPooled c.archs source) (c.compile source output) := by
  have compiled : ∀ e destination, Follows (compilePlan c.isPooled c.archs source) (do
      let objects ← c.compileAll source e
      let _ ← c.host.mergeObjects c.tools.lipo objects destination (some source.toString)
      return (⟨source, destination, e⟩ : CompiledUnit)) := by
    intro e destination
    refine (follows_compileAll c source e).bind fun objects _ => ?_
    exact (follows_mergeObjects _ _ _ _ _).bind_quiet fun _ => (Build.still_pure _).quiet
  unfold Compiler.compile
  refine EntryPoint.still_generate.quiet.bind_follows fun e _ => ?_
  cases output with
  | some output => exact compiled e output
  | none =>
      exact (Build.still_ofFallible _).quiet.bind_follows fun destination _ =>
        compiled e destination

/-! ## Linking -/

/-- A handler that calls no tool and fails in its turn leaves the plan as it is. -/
theorem Follows.tryCatch {p : List Phase} {x : Build α} {handler : Failure → Build α}
    (hx : Follows p x) (hquiet : ∀ failure, (handler failure).Quiet)
    (hfails : ∀ failure w a, ((handler failure).run w).1 ≠ .ok a) :
    Follows p (tryCatch x handler) := by
  intro w
  obtain ⟨made, hmade, hobeys⟩ := hx w
  rw [run_tryCatch]
  rcases hrun : x.run w with ⟨failure | a, v⟩
  · rw [hrun] at hmade
    refine ⟨made, ?_, hobeys.mono fun ⟨a, ha⟩ => absurd ha (hfails failure v a)⟩
    rw [← hmade]
    exact hquiet failure v
  · rw [hrun] at hmade hobeys
    exact ⟨made, hmade, hobeys⟩

/-- The glue is compiled by one call. -/
theorem follows_compileGlue (k : Linker) (text name : String) :
    Follows [.one ⟨.glue, some name, none⟩] (k.compileGlue text name) := by
  unfold Linker.compileGlue
  refine (Build.quiet_allocate _ _ _).bind_follows fun source _ => ?_
  refine (Build.quiet_onDisk _).bind_follows fun _ _ => ?_
  refine (Build.quiet_allocate _ _ _).bind_follows fun object _ => ?_
  have glue := follows_hostRun k.host (c := k.glueCall name source object)
    (by simp [Linker.glueCall]) (Or.inl rfl)
  exact glue.bind_quiet fun _ => (Build.still_pure _).quiet

/-- A link is one call, which names the output. -/
theorem follows_link (k : Linker) (output : Path) (objects : List Path)
    (modeFlags libraries extraFlags : List String) :
    Follows [.one ⟨.link, some output.name, none⟩]
      (k.link output objects modeFlags libraries extraFlags) := by
  unfold Linker.link
  refine (Build.quiet_onDisk _).bind_follows fun _ _ => ?_
  have link := follows_hostRun k.host
    (c := k.linkCall output objects modeFlags libraries extraFlags)
    (by simp [Linker.linkCall]) (Or.inl rfl)
  exact link.bind_quiet fun _ => (Build.still_pure _).quiet

/-- A strip is one call, which names the output. -/
theorem follows_strip (k : Linker) (output : Path) (flags : List String) :
    Follows [.one ⟨.strip, some output.name, none⟩] (k.strip output flags) := by
  unfold Linker.strip
  have strip := follows_hostRun k.host (c := k.stripCall output flags)
    (by simp [Linker.stripCall]) (Or.inl rfl)
  refine Follows.tryCatch (strip.bind_quiet fun _ => (Build.still_pure _).quiet) ?_ ?_
  · intro failure
    split
    · exact (Build.quiet_onDisk _).bind fun _ => (Build.still_complain _).quiet
    · exact (Build.still_throw _).quiet
  · intro failure w a
    split
    · rw [run_bind]
      split <;> exact nofun
    · exact nofun

/-- An output is made as `finishPlan` says. -/
theorem follows_finish (k : Linker) (text name : String) (output : Path)
    (objects : Path → List Path) (modeFlags libraries extraFlags stripFlags : List String) :
    Follows (finishPlan name output.name) (do
      let glueObject ← k.compileGlue text name
      k.link output (objects glueObject) modeFlags libraries extraFlags
      k.strip output stripFlags) :=
  (follows_compileGlue k text name).bind fun _ _ =>
    (follows_link k output _ _ _ _).bind fun _ _ => follows_strip k output stripFlags

/-- A bundle is its glue, a link and a strip. -/
theorem follows_bundle (k : Linker) (unit : CompiledUnit) (output : Path) :
    Follows (finishPlan unit.source.stem output.name) (k.bundle unit output) :=
  (Build.still_ofChecked _).quiet.bind_follows fun _ _ =>
    follows_finish k _ _ _ (fun glue => [glue, unit.path]) _ _ _ _

/-- A library is its glue, a link and a strip. -/
theorem follows_dylib (k : Linker) (inputs : List LinkInput) (output : Option Path)
    (linkerFlags : List String) :
    Follows (finishPlan ((output.map Path.stem).getD "") ((output.map Path.name).getD ""))
      (k.dylib inputs output linkerFlags) := by
  cases output with
  | some output =>
      exact follows_finish k _ _ _ (fun glue => glue :: inputs.map LinkInput.path) _ _ _ _
  | none =>
      intro w
      exact ⟨[], (List.append_nil _).symm, .nil (fun ⟨_, ha⟩ => nomatch ha) _⟩

/-- A program is its glue, a link and a strip. -/
theorem follows_executable (k : Linker) (inputs : List LinkInput) (output : Path) (static : Bool)
    (frameworks linkerFlags : List String) :
    Follows (finishPlan output.name output.name)
      (k.executable inputs output static frameworks linkerFlags) :=
  (Build.still_ofChecked _).quiet.bind_follows fun _ _ =>
    follows_finish k _ _ _ (fun glue => glue :: inputs.map LinkInput.path) _ _ _ _

/-! ## Passes over the inputs -/

namespace Path

variable {p q : Path} {extension : String}

/-- What a path is with another extension. -/
theorem withExtension_ok (h : p.withExtension extension = .ok q) :
    '/' ∉ extension.toList ∧ p.name ≠ "" ∧ q = p.withName (p.stem ++ extension) := by
  unfold withExtension at h
  split at h
  · exact nomatch h
  · rename_i hextension
    split at h
    · exact nomatch h
    · rename_i hname
      refine ⟨?_, hname, (Except.ok.inj h).symm⟩
      unfold isExtension at hextension
      simpa using fun hslash => hextension (by simp [hslash])

/-- The last name of a path that was given another extension. -/
theorem name_of_withExtension (h : p.withExtension extension = .ok q) :
    q.name = p.stem ++ extension := by
  obtain ⟨-, -, rfl⟩ := withExtension_ok h
  unfold name withName
  rw [List.getLast?_concat]
  rfl

end Path

namespace Builder

/-- The ready-made objects among the inputs that are not found yet, each one
    once. -/
def unscanned (layout : Toolchain) (found : Prebuilt) (inputs : List Path) : List Path :=
  (distinct (inputs.filter (·.extension = layout.objectExtension))).filter
    fun input => !found.any (·.1 == input)

theorem unscanned_nil_found (layout : Toolchain) (inputs : List Path) :
    unscanned layout [] inputs = distinct (inputs.filter (·.extension = layout.objectExtension)) :=
  List.filter_eq_self.mpr fun _ _ => rfl

/-- An input that is no object, or is found already, is passed over. -/
theorem unscanned_cons_of_skip {layout : Toolchain} {found : Prebuilt} {input : Path}
    (later : List Path)
    (h : input.extension ≠ layout.objectExtension ∨ found.any (·.1 == input) = true) :
    unscanned layout found (input :: later) = unscanned layout found later := by
  unfold unscanned
  by_cases hobject : input.extension = layout.objectExtension
  · have hfound := h.resolve_left (not_not_intro hobject)
    have hsame : ∀ a, (!found.any (·.1 == a) && decide (a ≠ input)) = !found.any (·.1 == a) := by
      intro a
      by_cases ha : a = input
      · rw [ha, hfound]
        rfl
      · rw [decide_eq_true ha, Bool.and_true]
    rw [List.filter_cons_of_pos (by simpa using hobject), distinct_cons,
      List.filter_cons_of_neg (by rw [hfound]; exact nofun), List.filter_filter]
    simp only [hsame]
  · rw [List.filter_cons_of_neg (by simpa using hobject)]

/-- An object that is not found yet comes first, and is found from then on. -/
theorem unscanned_cons_of_new {layout : Toolchain} {found : Prebuilt} {input : Path}
    (later : List Path) (e : Option EntryPoint)
    (hobject : input.extension = layout.objectExtension)
    (hnew : found.any (·.1 == input) = false) :
    unscanned layout found (input :: later)
      = input :: unscanned layout (found ++ [(input, e)]) later := by
  have hsame : ∀ a, (!found.any (·.1 == a) && decide (a ≠ input))
      = !(found ++ [(input, e)]).any (·.1 == a) := by
    intro a
    rw [List.any_append, Bool.not_or, List.any_cons, List.any_nil, Bool.or_false]
    by_cases ha : a = input
    · simp [ha]
    · simp [ha, Ne.symm ha]
  unfold unscanned
  rw [List.filter_cons_of_pos (by simpa using hobject), distinct_cons,
    List.filter_cons_of_pos (by rw [hnew]; rfl), List.filter_filter]
  simp only [hsame]

/-- The objects that are not found yet are scanned one after the other. -/
theorem follows_scanPrebuilt (b : Builder) (r : Request) (layout : Toolchain) (tools : ToolPaths)
    (inputs : List Path) (found : Prebuilt) :
    Follows (sequence ((unscanned layout found inputs).map fun input =>
        ⟨.symbols, some input.toString, none⟩))
      (b.scanPrebuilt r layout tools inputs found) := by
  induction inputs generalizing found with
  | nil => exact (Build.still_pure _).quiet.follows
  | cons input later ih =>
      rw [scanPrebuilt_cons]
      by_cases hskip : input.extension ≠ layout.objectExtension ∨ found.any (·.1 == input)
      · rw [if_pos hskip, unscanned_cons_of_skip later hskip]
        exact ih found
      · rw [if_neg hskip]
        rw [not_or, Decidable.not_not, Bool.not_eq_true] at hskip
        rw [unscanned_cons_of_new later none hskip.1 hskip.2, List.map_cons]
        refine (follows_scanEntryPoint b.host tools.nm input).bind fun e _ => ?_
        -- which entry point is found does not count for what is still to be scanned
        have rest := ih (found ++ [(input, e)])
        rw [← (List.cons.inj ((unscanned_cons_of_new later e hskip.1 hskip.2).symm.trans
          (unscanned_cons_of_new later none hskip.1 hskip.2))).2.symm] at rest
        exact (still_settleObject r input e).quiet.bind_follows fun _ _ => rest

/-- Among the inputs of a link, only the sources are called for. -/
theorem follows_linkInputs (b : Builder) (layout : Toolchain) (c : Compiler) (prebuilt : Prebuilt)
    (inputs : List Path) :
    Follows (Request.sourcesPlan layout c.isPooled c.archs inputs)
      (b.linkInputs layout c prebuilt inputs) := by
  induction inputs with
  | nil => exact (Build.still_pure _).quiet.follows
  | cons input later ih =>
      unfold linkInputs Request.sourcesPlan
      by_cases hsource : input.extension = layout.sourceExtension
      · rw [if_pos hsource, List.filter_cons_of_pos (by simpa using hsource), List.flatMap_cons]
        have compiled : ∀ object, Follows (compilePlan c.isPooled c.archs input)
            (LinkInput.ofUnit <$> c.compile input (some object)) := by
          intro object
          rw [map_eq_pure_bind]
          exact (follows_compile c input (some object)).bind_quiet
            fun _ => (Build.still_pure _).quiet
        exact (Build.quiet_allocate _ _ _).bind_follows fun object _ =>
          (compiled object).bind fun _ _ => ih.bind_quiet fun _ => (Build.still_pure _).quiet
      · rw [if_neg hsource, List.filter_cons_of_neg (by simpa using hsource)]
        exact (Build.still_pure _).quiet.bind_follows fun _ _ =>
          ih.bind_quiet fun _ => (Build.still_pure _).quiet

/-- An object request compiles its inputs one by one. -/
theorem follows_buildObjects (c : Compiler) (output : Option Path) (inputs : List Path) :
    Follows (inputs.flatMap (compilePlan c.isPooled c.archs)) (buildObjects c output inputs) := by
  induction inputs with
  | nil => exact (Build.still_pure _).quiet.follows
  | cons input later ih =>
      rw [List.flatMap_cons]
      refine (follows_compile c input output).bind fun unit _ => ?_
      exact ih.bind_quiet fun _ => (Build.still_pure _).quiet

/-- A bundle request compiles and finishes its inputs one by one. -/
theorem follows_buildBundles (layout : Toolchain) (c : Compiler) (k : Linker)
    (output : Option Path) (inputs : List Path) :
    Follows (inputs.flatMap fun input => compilePlan c.isPooled c.archs input
        ++ finishPlan input.stem ((output.map Path.name).getD
          (input.stem ++ layout.bundleExtension)))
      (buildBundles layout c k output inputs) := by
  induction inputs with
  | nil => exact (Build.still_pure _).quiet.follows
  | cons input later ih =>
      rw [List.flatMap_cons, List.append_assoc]
      refine (Build.quiet_allocate _ _ _).bind_follows fun object _ => ?_
      refine (follows_compile c input (some object)).bind fun unit hunit => ?_
      obtain ⟨w, v, hunit⟩ := hunit
      -- what is bundled is what was compiled of the input
      rw [← (Compiler.compile_ok hunit).1]
      have finished : ∀ output', Follows (finishPlan unit.source.stem output'.name
          ++ later.flatMap fun input => compilePlan c.isPooled c.archs input
            ++ finishPlan input.stem ((output.map Path.name).getD
              (input.stem ++ layout.bundleExtension))) (do
          let artifact ← k.bundle unit output'
          return artifact :: (← buildBundles layout c k output later)) := fun output' =>
        (follows_bundle k unit output').bind fun _ _ =>
          ih.bind_quiet fun _ => (Build.still_pure _).quiet
      cases output with
      | some output => exact finished output
      | none =>
          refine (Build.still_ofFallible _).quiet.bind_follows fun output' houtput' => ?_
          obtain ⟨_, _, houtput'⟩ := houtput'
          rw [Option.map_none, Option.getD_none,
            ← Path.name_of_withExtension (Build.run_ofFallible_eq_ok houtput').1]
          exact finished output'

/-- The question to the back end is asked if there is something to compile. -/
theorem follows_exceptionFlags (b : Builder) (r : Request) (layout : Toolchain)
    (tools : ToolPaths) :
    Follows (Request.probePlan layout r.inputs) (b.exceptionFlags r layout tools) := by
  have hany : (r.inputs.any fun input => input.extension == layout.sourceExtension)
      = r.inputs.any (·.extension = layout.sourceExtension) := rfl
  unfold Request.probePlan exceptionFlags
  rw [hany]
  by_cases h : r.inputs.any (·.extension = layout.sourceExtension) = true
  · rw [if_pos h, if_pos h]
    exact follows_probeExceptionFlags b.host tools.backend
  · rw [if_neg h, if_neg h]
    exact (Build.still_pure _).quiet.follows

/-- An executable's path has the last name that its plan says. -/
theorem name_of_executableOutput {r : Request} {output : Path} {w v : World}
    (h : (executableOutput r).run w = (.ok output, v)) : output.name = r.programName := by
  unfold executableOutput at h
  unfold Request.programName Request.outputName
  rcases hgiven : r.output with _ | given
  · rcases hinputs : r.inputs with _ | ⟨first, later⟩
    · rw [hgiven, hinputs] at h
      exact absurd h error_ne_ok
    · rw [hgiven, hinputs] at h
      rw [Path.name_of_withExtension (Build.run_ofFallible_eq_ok h).1, String.append_empty]
      rfl
  · rw [hgiven] at h
    rw [(run_pure_eq_ok h).1]
    rfl

variable {r : Request}

/-- What is built from every input directly has no ready-made objects to look into. -/
theorem quiet_readyMade (b : Builder) (layout : Toolchain) (tools : ToolPaths)
    (h : r.kind.isPerInput = true) : Build.Quiet (b.readyMade r layout tools) := by
  unfold readyMade
  rw [if_pos h]
  exact (Build.still_pure _).quiet

/-- Unless it is made input by input, the prebuilt inputs are scanned first. -/
theorem follows_readyMade (b : Builder) (layout : Toolchain) (tools : ToolPaths)
    (h : r.kind.isPerInput = false) :
    Follows (Request.scanPlan layout r.inputs) (b.readyMade r layout tools) := by
  have scan := b.follows_scanPrebuilt r layout tools r.inputs []
  rw [unscanned_nil_found] at scan
  unfold readyMade
  rw [if_neg (by rw [h]; exact nofun)]
  exact scan

/-- Behind the look into the ready-made objects the probe is next. -/
theorem follows_furnished (b : Builder) (layout : Toolchain) (tools : ToolPaths)
    {q : List Phase} (prebuilt : Prebuilt)
    (h : ∀ exceptions bridging, Follows q (b.produce r layout
      (b.compilerFor r layout tools exceptions bridging) (b.linkerFor r layout tools) prebuilt)) :
    Follows (Request.probePlan layout r.inputs ++ q) (do
      let exceptions ← b.exceptionFlags r layout tools
      let bridging ← bridgingFlags r layout
      b.produce r layout (b.compilerFor r layout tools exceptions bridging)
        (b.linkerFor r layout tools) prebuilt) :=
  (b.follows_exceptionFlags r layout tools).bind fun exceptions _ =>
    (still_bridgingFlags r layout).quiet.bind_follows fun bridging _ => h exceptions bridging

/-- Where there are sources only, the probe is asked. -/
theorem probePlan_of_sources {layout : Toolchain} {inputs : List Path} (hne : inputs ≠ [])
    (h : ∀ input ∈ inputs, input.extension = layout.sourceExtension) :
    Request.probePlan layout inputs = [.one ⟨.probe, none, none⟩] := by
  obtain ⟨first, later, hcons⟩ := List.exists_cons_of_ne_nil hne
  have hfirst := h first (by rw [hcons]; exact List.mem_cons_self)
  unfold Request.probePlan
  rw [hcons, List.any_cons, decide_eq_true hfirst, Bool.true_or, if_pos rfl]
  rfl

/-- A kind with one output for each input looks into nothing first, and has sources to
    compile, so that it probes. -/
theorem follows_perInput (b : Builder) (layout : Toolchain) (tools : ToolPaths) {q : List Phase}
    (hkind : r.kind.isPerInput = true) (hne : r.inputs ≠ [])
    (hsources : ∀ input ∈ r.inputs, input.extension = layout.sourceExtension)
    (h : ∀ prebuilt exceptions bridging, Follows q (b.produce r layout
      (b.compilerFor r layout tools exceptions bridging) (b.linkerFor r layout tools) prebuilt)) :
    Follows (.one ⟨.probe, none, none⟩ :: q) (b.buildArtifacts r layout tools) := by
  rw [buildArtifacts_eq, ← List.singleton_append, ← probePlan_of_sources hne hsources]
  exact (b.quiet_readyMade layout tools hkind).bind_follows fun prebuilt _ =>
    b.follows_furnished layout tools prebuilt (h prebuilt)

/-- A kind that links does what its inputs ask for. -/
theorem follows_linked (b : Builder) (layout : Toolchain) (tools : ToolPaths) {q : List Phase}
    (hkind : r.kind.isPerInput = false)
    (h : ∀ prebuilt exceptions bridging, Follows
      (Request.sourcesPlan layout r.isPooled r.archs r.inputs ++ q) (b.produce r layout
        (b.compilerFor r layout tools exceptions bridging) (b.linkerFor r layout tools) prebuilt)) :
    Follows (Request.scanPlan layout r.inputs ++ Request.probePlan layout r.inputs
        ++ Request.sourcesPlan layout r.isPooled r.archs r.inputs ++ q)
      (b.buildArtifacts r layout tools) := by
  rw [buildArtifacts_eq, List.append_assoc, List.append_assoc]
  exact (b.follows_readyMade layout tools hkind).bind fun prebuilt _ =>
    b.follows_furnished layout tools prebuilt (h prebuilt)

/-- **The work** on a request is as its plan says, if what is built from its
    inputs directly has sources for inputs. -/
theorem follows_buildArtifacts (b : Builder) (layout : Toolchain) (tools : ToolPaths)
    (hne : r.inputs ≠ []) (hsources : r.kind.isPerInput = true →
      ∀ input ∈ r.inputs, input.extension = layout.sourceExtension) :
    Follows (r.plan layout) (b.buildArtifacts r layout tools) := by
  unfold Request.plan
  cases hkind : r.kind with
  | object =>
      have direct : r.kind.isPerInput = true := by rw [hkind]; rfl
      refine b.follows_perInput layout tools direct hne (hsources direct) fun _ _ _ => ?_
      unfold produce
      rw [hkind]
      exact follows_buildObjects _ r.output r.inputs
  | bundle =>
      have direct : r.kind.isPerInput = true := by rw [hkind]; rfl
      refine b.follows_perInput layout tools direct hne (hsources direct) fun _ _ _ => ?_
      unfold produce
      rw [hkind]
      exact follows_buildBundles layout _ (b.linkerFor r layout tools) r.output r.inputs
  | dylib =>
      have linked : r.kind.isPerInput = false := by rw [hkind]; rfl
      refine b.follows_linked layout tools linked fun prebuilt exceptions bridging => ?_
      unfold produce
      rw [hkind]
      refine (b.follows_linkInputs layout (b.compilerFor r layout tools exceptions bridging)
        prebuilt r.inputs).bind fun inputs _ => ?_
      exact (follows_dylib (b.linkerFor r layout tools) inputs r.output
        r.linkerFlags).bind_quiet fun _ => (Build.still_pure _).quiet
  | executable =>
      have linked : r.kind.isPerInput = false := by rw [hkind]; rfl
      refine b.follows_linked layout tools linked fun prebuilt exceptions bridging => ?_
      unfold produce
      rw [hkind]
      refine (b.follows_linkInputs layout (b.compilerFor r layout tools exceptions bridging)
        prebuilt r.inputs).bind fun inputs _ => ?_
      -- the program is named by its output, which is found behind the inputs
      refine (still_executableOutput r).quiet.bind_follows fun output houtput => ?_
      obtain ⟨_, _, houtput⟩ := houtput
      rw [← name_of_executableOutput houtput]
      exact (follows_executable (b.linkerFor r layout tools) inputs output r.static
        r.frameworks (withoutDylibOptions r.linkerFlags)).bind_quiet
          fun _ => (Build.still_pure _).quiet

end Builder

/-! ## The whole build -/

/-- A record of the problem does not change which calls are made. -/
theorem Follows.noteFailure {p : List Phase} {act : Build α} (h : Follows p act) :
    Follows p (Builder.noteFailure act) := by
  refine h.tryCatch ?_ ?_
  · intro failure
    cases failure with
    | problem p => exact (Build.still_log _).quiet.bind fun _ => (Build.still_throw _).quiet
    | fault f => exact (Build.still_throw _).quiet
  · intro failure w a
    cases failure with
    | problem p => exact nofun
    | fault f => exact nofun

/-- A cleanup that calls no tool does not change which calls are made. -/
theorem Follows.ensuring {p : List Phase} {act : Build α} {cleanup : Build Unit}
    (h : Follows p act) (hquiet : cleanup.Quiet) : Follows p (Build.ensuring act cleanup) := by
  intro w
  obtain ⟨made, hmade, hobeys⟩ := h w
  have hsame := hquiet (act.run w).2
  rw [Build.run_ensuring]
  rcases hrun : cleanup.run (act.run w).2 with ⟨failure | _, v⟩
  · rw [hrun] at hsame
    exact ⟨made, hsame.trans hmade, hobeys.mono fun ⟨_, ha⟩ => nomatch ha⟩
  · rw [hrun] at hsame
    exact ⟨made, hsame.trans hmade, hobeys⟩

namespace Request

/-- A toolchain plans the same from inside an SDK. -/
theorem plan_layout (r : Request) (t : Toolchain) : r.plan (r.layout t) = r.plan t := by
  unfold layout
  cases r.sdk with
  | none => rfl
  | some sdk => rfl

theorem sourceExtension_layout (r : Request) (t : Toolchain) :
    (r.layout t).sourceExtension = t.sourceExtension := by
  unfold layout
  cases r.sdk with
  | none => rfl
  | some sdk => rfl

theorem objectExtension_layout (r : Request) (t : Toolchain) :
    (r.layout t).objectExtension = t.objectExtension := by
  unfold layout
  cases r.sdk with
  | none => rfl
  | some sdk => rfl

/-- What passes the checks for a kind that is built from its inputs directly is
    a source. -/
theorem sources_of_check {r : Request} {t : Toolchain} {files : FileTree}
    (hcheck : r.check t files = .ok ()) (hkind : r.kind.isPerInput = true) :
    ∀ input ∈ r.inputs, input.extension = t.sourceExtension := by
  intro input hin
  have hallowed := (inputs_of_check hcheck input hin).2
  unfold allowedExtensions at hallowed
  rw [if_pos hkind] at hallowed
  exact List.mem_singleton.mp hallowed

/-- A request that can be built has inputs. -/
theorem inputs_ne_nil {f : RequestFields} {r : Request} (h : ofFields f = .ok r) :
    r.inputs ≠ [] := (ofFields_eq_ok_iff.mp h).hasInputs

end Request

/-- A build follows the plan of its request. -/
theorem follows_run (b : Builder) {r : Request} (hne : r.inputs ≠ []) :
    Follows (r.plan b.toolchain) (b.run r) := by
  rw [Builder.run_eq]
  refine (b.still_furnish r).quiet.bind_follows fun ⟨layout, tools⟩ hbegun => ?_
  obtain ⟨w, v, hbegun⟩ := hbegun
  obtain ⟨hcheck, rfl⟩ := Builder.furnish_ok hbegun
  refine (Build.quiet_openScratch _ _).bind_follows fun _ _ => ?_
  have hwork := b.follows_buildArtifacts (r.layout b.toolchain) tools hne fun hkind => by
    rw [r.sourceExtension_layout b.toolchain]
    exact Request.sources_of_check hcheck hkind
  rw [r.plan_layout] at hwork
  refine (hwork.noteFailure.ensuring Build.quiet_cleanUp).bind_quiet fun artifacts => ?_
  exact (Build.still_log _).quiet.bind fun _ => Build.still_get.quiet.bind fun _ =>
    (Build.still_pure _).quiet

/-! ## Where an output is stripped -/

/-- Every strip of a plan is a call of its own, directly behind a link. -/
def StripsLinked (plan : List Phase) : Prop :=
  ∀ before p later, plan = before ++ p :: later → (∃ label ∈ p.labels, label.stage = .strip) →
    ∃ earlier x y, before = earlier ++ [.one x] ∧ x.stage = .link ∧ p = .one y

namespace StripsLinked

/-- Where nothing is stripped, nothing is stripped in the wrong place. -/
theorem of_noStrip {plan : List Phase} (h : ∀ p ∈ plan, ∀ label ∈ p.labels, label.stage ≠ .strip) :
    StripsLinked plan := by
  rintro before p later hplan ⟨label, hlabel, hstrip⟩
  refine absurd hstrip (h p ?_ label hlabel)
  rw [hplan]
  exact List.mem_append_right _ List.mem_cons_self

/-- Two such plans behind each other are one. -/
theorem append {p q : List Phase} (hp : StripsLinked p) (hq : StripsLinked q) :
    StripsLinked (p ++ q) := by
  intro before x later hplan hstrip
  rcases List.append_eq_append_iff.mp hplan with ⟨between, hbefore, hq'⟩ | ⟨between, hp', hx⟩
  · obtain ⟨earlier, y, z, hbetween, hy, hz⟩ := hq between x later hq' hstrip
    exact ⟨p ++ earlier, y, z, by rw [hbefore, hbetween, List.append_assoc], hy, hz⟩
  · cases between with
    | nil =>
        -- the strip would stand at the head of the second plan
        obtain ⟨earlier, y, z, hnil, -⟩ := hq [] x later hx.symm hstrip
        exact absurd hnil (List.append_ne_nil_of_right_ne_nil _ (List.cons_ne_nil _ _)).symm
    | cons z rest =>
        obtain ⟨rfl, -⟩ := List.cons.inj hx
        exact hp before x rest hp' hstrip

/-- So is one such plan for each input. -/
theorem flatMap {γ : Type} {inputs : List γ} {block : γ → List Phase}
    (h : ∀ input, StripsLinked (block input)) : StripsLinked (inputs.flatMap block) := by
  induction inputs with
  | nil => exact of_noStrip fun x hx => nomatch hx
  | cons input later ih =>
      rw [List.flatMap_cons]
      exact (h input).append ih

/-- Calls in a row have their labels for phases. -/
theorem sequence_of_noStrip {labels : List Label} (h : ∀ label ∈ labels, label.stage ≠ .strip) :
    StripsLinked (sequence labels) := by
  refine of_noStrip fun p hp label hlabel => ?_
  obtain ⟨own, hown, rfl⟩ := List.mem_map.mp hp
  rw [List.mem_singleton.mp hlabel]
  exact h own hown

end StripsLinked

/-- No call for an architecture strips. -/
theorem stage_of_archPlan {input : Path} {arch : Arch} {label : Label}
    (h : label ∈ archPlan input arch) : label.stage ≠ .strip := by
  obtain ⟨stage, hstage, rfl⟩ := List.mem_map.mp h
  rintro rfl
  exact absurd hstage (by decide)

/-- No call for a source strips. -/
theorem stripsLinked_compilePlan (pooled : Bool) (archs : List Arch) (input : Path) :
    StripsLinked (compilePlan pooled archs input) := by
  have hmerge : StripsLinked (sequence [⟨.merge, some input.toString, none⟩]) :=
    .sequence_of_noStrip (List.forall_mem_singleton.mpr nofun)
  refine StripsLinked.append ?_ hmerge
  cases pooled with
  | false =>
      refine .sequence_of_noStrip fun label hlabel => ?_
      obtain ⟨arch, -, hlabel⟩ := List.mem_flatMap.mp hlabel
      exact stage_of_archPlan hlabel
  | true =>
      refine .of_noStrip (List.forall_mem_singleton.mpr fun label hlabel => ?_)
      obtain ⟨strand, hstrand, hlabel⟩ := List.mem_flatten.mp hlabel
      obtain ⟨arch, -, rfl⟩ := List.mem_map.mp hstrand
      exact stage_of_archPlan hlabel

/-- The strip of an output is right behind its link. -/
theorem stripsLinked_finishPlan (glue output : String) :
    StripsLinked (finishPlan glue output) := by
  rintro before p later hplan ⟨label, hlabel, hstrip⟩
  unfold finishPlan sequence at hplan
  simp only [List.map_cons, List.map_nil] at hplan
  rcases before with _ | ⟨first, _ | ⟨second, _ | ⟨third, rest⟩⟩⟩
  · rw [← (List.cons.inj hplan).1] at hlabel
    rw [List.mem_singleton.mp hlabel] at hstrip
    exact nomatch hstrip
  · rw [← (List.cons.inj (List.cons.inj hplan).2).1] at hlabel
    rw [List.mem_singleton.mp hlabel] at hstrip
    exact nomatch hstrip
  · obtain ⟨hsecond, hlast⟩ := List.cons.inj (List.cons.inj hplan).2
    exact ⟨[first], _, _, by rw [← hsecond]; rfl, rfl, (List.cons.inj hlast).1.symm⟩
  · refine absurd (List.cons.inj (List.cons.inj (List.cons.inj hplan).2).2).2.symm ?_
    exact List.append_ne_nil_of_right_ne_nil _ (List.cons_ne_nil _ _)

/-- In the plan of every request a strip stands directly behind a link. -/
theorem stripsLinked_plan (r : Request) (t : Toolchain) : StripsLinked (r.plan t) := by
  have probe : StripsLinked (sequence [⟨.probe, none, none⟩]) :=
    .sequence_of_noStrip (List.forall_mem_singleton.mpr nofun)
  have scan : StripsLinked (Request.scanPlan t r.inputs) := by
    refine .sequence_of_noStrip fun label hlabel => ?_
    obtain ⟨input, -, rfl⟩ := List.mem_map.mp hlabel
    exact nofun
  have asked : StripsLinked (Request.probePlan t r.inputs) := by
    unfold Request.probePlan
    split
    · exact probe
    · exact .sequence_of_noStrip (List.forall_mem_nil _)
  have sources : StripsLinked (Request.sourcesPlan t r.isPooled r.archs r.inputs) :=
    .flatMap (stripsLinked_compilePlan r.isPooled r.archs)
  unfold Request.plan
  cases r.kind with
  | object => exact probe.append (.flatMap (stripsLinked_compilePlan r.isPooled r.archs))
  | bundle =>
      exact probe.append (.flatMap fun input =>
        (stripsLinked_compilePlan r.isPooled r.archs input).append (stripsLinked_finishPlan _ _))
  | dylib => exact ((scan.append asked).append sources).append (stripsLinked_finishPlan _ _)
  | executable =>
      exact ((scan.append asked).append sources).append (stripsLinked_finishPlan _ _)

/-- The calls made strip nothing but what was linked directly before. -/
def StripsBehindLinks (made : List Exchange) : Prop :=
  ∀ before e later, made = before ++ e :: later → e.call.stage = .strip →
    ∃ earlier link, before = earlier ++ [link] ∧ link.call.stage = .link ∧ link.Succeeded

/-- Every call of a phase has one of its labels. -/
theorem Phase.Broken.label_mem {p : Phase} {made : List Exchange} (h : p.Broken made)
    {x : Exchange} (hx : x ∈ made) : x.call.label ∈ p.labels := by
  cases h with
  | idle => exact nomatch hx
  | one y => rw [List.mem_singleton.mp hx]; exact List.mem_singleton_self _
  | together hshares hwoven =>
      obtain ⟨own, hown, hx⟩ := hwoven.mem_iff.mp hx
      obtain ⟨s, hs, rfl⟩ := List.mem_map.mp hown
      exact List.mem_flatten.mpr ⟨s.1, List.mem_map_of_mem hs,
        (hshares s hs).1.subset (List.mem_map_of_mem hx)⟩

/-- A phase that is done is one that was broken off at its end. -/
theorem Phase.Done.broken {p : Phase} {made : List Exchange} (h : p.Done made) :
    p.Broken made := by
  cases h with
  | one => exact .one _
  | @together shares made hgoesOn hwoven =>
      let planned : List (List Label × List Exchange) :=
        shares.map fun share => (share.map (·.call.label), share)
      have hwoven' : Interleaves (planned.map Prod.snd) made := by
        rw [List.map_map]
        exact (List.map_id shares).symm ▸ hwoven
      have hplanned : (Phase.together (planned.map Prod.fst)).Broken made :=
        .together (List.forall_mem_map.mpr fun share hshare => ⟨List.prefix_refl _,
          fun x hx => hgoesOn share hshare x (List.dropLast_subset _ hx)⟩) hwoven'
      rw [List.map_map] at hplanned
      exact hplanned

/-- A call that was made belongs to a phase, and the phases before have been gone
    through. -/
theorem Obeys.locate {isDone : Prop} {plan : List Phase} {made before later : List Exchange}
    {x : Exchange} (h : Obeys isDone plan made) (hmade : made = before ++ x :: later) :
    ∃ earlier p rest first own, plan = earlier ++ p :: rest ∧ before = first ++ own ∧
      Obeys True earlier first ∧ ∃ more, p.Broken (own ++ x :: more) := by
  induction h generalizing before with
  | done => exact absurd hmade.symm (List.append_ne_nil_of_right_ne_nil _ (List.cons_ne_nil _ _))
  | @broken p plan made _ hbroken =>
      exact ⟨[], p, plan, [], before, rfl, rfl, .done, later, hmade ▸ hbroken⟩
  | @next p plan made more hdone _ ih =>
      rcases List.append_eq_append_iff.mp hmade with ⟨own, hbefore, hmore⟩ | ⟨own, hmade, hx⟩
      · obtain ⟨earlier, q, rest, first, own', rfl, hown, hearlier, hq⟩ := ih hmore
        refine ⟨p :: earlier, q, rest, made ++ first, own', rfl, ?_, .next hdone hearlier, hq⟩
        rw [hbefore, hown, List.append_assoc]
      · cases own with
        | nil =>
            obtain ⟨earlier, q, rest, first, own', rfl, hown, hearlier, hq⟩ :=
              ih (show more = [] ++ x :: later from hx.symm)
            refine ⟨p :: earlier, q, rest, made ++ first, own', rfl, ?_, .next hdone hearlier, hq⟩
            rw [List.append_assoc, ← hown, hmade, List.append_nil, List.append_nil]
        | cons y own =>
            obtain ⟨rfl, -⟩ := List.cons.inj hx
            refine ⟨[], p, plan, [], before, rfl, rfl, .done, own, ?_⟩
            rw [← hmade]
            exact hdone.broken

/-- Every call that was made has a label of the plan. -/
theorem Obeys.label_mem {isDone : Prop} {plan : List Phase} {made : List Exchange}
    (h : Obeys isDone plan made) {x : Exchange} (hx : x ∈ made) :
    ∃ p ∈ plan, x.call.label ∈ p.labels := by
  obtain ⟨before, later, hmade⟩ := List.append_of_mem hx
  obtain ⟨earlier, p, rest, _, _, rfl, -, -, _, hp⟩ := h.locate hmade
  exact ⟨p, List.mem_append_right _ List.mem_cons_self,
    hp.label_mem (List.mem_append_right _ List.mem_cons_self)⟩

/-- **Calls that obey such a plan** strip only what they have just linked. -/
theorem Obeys.stripsBehindLinks {isDone : Prop} {plan : List Phase} {made : List Exchange}
    (h : Obeys isDone plan made) (hplan : StripsLinked plan) : StripsBehindLinks made := by
  intro before e later hmade hstrip
  obtain ⟨earlier, p, rest, first, own, hplan', rfl, hearlier, more, hp⟩ := h.locate hmade
  obtain ⟨front, x, y, rfl, hx, rfl⟩ := hplan earlier p rest hplan'
    ⟨_, hp.label_mem (List.mem_append_right _ List.mem_cons_self), hstrip⟩
  -- the strip is all of its phase, and the phase before it is the link
  have hown : own = [] := by
    generalize hall : own ++ e :: more = all at hp
    cases hp with
    | idle => exact absurd hall (List.append_ne_nil_of_right_ne_nil _ (List.cons_ne_nil _ _))
    | one z =>
        cases own with
        | nil => rfl
        | cons a own =>
            refine absurd (List.cons.inj hall).2 ?_
            exact List.append_ne_nil_of_right_ne_nil _ (List.cons_ne_nil _ _)
  obtain ⟨calls, last, rfl, -, hlast⟩ := hearlier.split
  obtain _ | ⟨hnot, -⟩ | ⟨hlink, hnone⟩ := hlast
  · exact absurd trivial hnot
  · cases hnone
    cases hlink with
    | @one link hgoesOn =>
        refine ⟨calls, link, ?_, hx, ?_⟩
        · rw [hown, List.append_nil, List.append_nil]
        · rcases hgoesOn with hprobe | hsucceeded
          · exact nomatch hprobe.symm.trans hx
          · exact hsucceeded

/-! ## Architectures in turn -/

namespace Request

/-- The calls of a request in their order, where the architectures of an input follow
    each other. -/
def order (r : Request) (t : Toolchain) : List Label := (r.plan t).flatMap Phase.labels

end Request

theorem labels_sequence (labels : List Label) :
    (sequence labels).flatMap Phase.labels = labels := by
  rw [sequence, List.flatMap_map]
  exact List.flatMap_singleton' labels

/-- The plan is one of single calls. -/
def IsSequence (plan : List Phase) : Prop := ∃ labels, plan = sequence labels

namespace IsSequence

/-- Two sequences behind each other are one. -/
theorem append {p q : List Phase} (hp : IsSequence p) (hq : IsSequence q) :
    IsSequence (p ++ q) := by
  obtain ⟨labels, rfl⟩ := hp
  obtain ⟨more, rfl⟩ := hq
  exact ⟨labels ++ more, List.map_append.symm⟩

/-- So is one sequence for each input. -/
theorem flatMap {γ : Type} {inputs : List γ} {block : γ → List Phase}
    (h : ∀ input, IsSequence (block input)) : IsSequence (inputs.flatMap block) := by
  induction inputs with
  | nil => exact ⟨[], rfl⟩
  | cons input later ih =>
      rw [List.flatMap_cons]
      exact (h input).append ih

end IsSequence

/-- A request with one worker, or with one architecture, plans single calls. -/
theorem plan_eq_sequence {r : Request} (h : r.isPooled = false) (t : Toolchain) :
    r.plan t = sequence (r.order t) := by
  have compiled : ∀ input, IsSequence (compilePlan r.isPooled r.archs input) := fun input => by
    rw [h]
    exact .append ⟨_, rfl⟩ ⟨_, rfl⟩
  have hplan : IsSequence (r.plan t) := by
    unfold Request.plan
    cases r.kind with
    | object => exact .append ⟨[_], rfl⟩ (.flatMap compiled)
    | bundle => exact .append ⟨[_], rfl⟩ (.flatMap fun input => (compiled input).append ⟨_, rfl⟩)
    | dylib => exact .append (.append (.append ⟨_, rfl⟩ ⟨_, rfl⟩) (.flatMap compiled)) ⟨_, rfl⟩
    | executable => exact .append (.append (.append ⟨_, rfl⟩ ⟨_, rfl⟩) (.flatMap compiled)) ⟨_, rfl⟩
  obtain ⟨labels, hlabels⟩ := hplan
  rw [Request.order, hlabels, labels_sequence]

/-- The calls made are an initial part of the order and the whole of it if the work
    is done, and behind each one, apart from a last one that stopped the work, the
    build could go on. -/
structure ObeysInTurn (order : List Label) (made : List Exchange) (isDone : Prop) : Prop where
  part : made.map (·.call.label) <+: order
  goesOn : ∀ e ∈ made.dropLast, e.LetsGoOn
  whole : isDone → made.map (·.call.label) = order ∧ ∀ e ∈ made, e.LetsGoOn

/-- A plan of single calls is obeyed one call after the other. -/
theorem Obeys.inTurn {isDone : Prop} {labels : List Label} {made : List Exchange}
    (h : Obeys isDone (sequence labels) made) : ObeysInTurn labels made isDone := by
  induction labels generalizing made with
  | nil =>
      cases h
      exact ⟨List.prefix_refl _, List.forall_mem_nil _, fun _ => ⟨rfl, List.forall_mem_nil _⟩⟩
  | cons label later ih =>
      cases h with
      | broken hnot hbroken =>
          -- a broken phase of one label has made its call or none
          refine ⟨?_, ?_, fun hdone => absurd hdone hnot⟩
          · cases hbroken with
            | idle => exact List.nil_prefix
            | one x => exact List.prefix_append [x.call.label] _
          · cases hbroken with
            | idle => exact List.forall_mem_nil _
            | one x => exact List.forall_mem_nil _
      | @next _ _ _ more hphase hlater =>
          obtain ⟨hpart, hgoesOn, hwhole⟩ := ih hlater
          cases hphase with
          | @one x hx =>
              refine ⟨(List.prefix_append_right_inj [x.call.label]).mpr hpart, ?_, fun hdone => ?_⟩
              · cases more with
                | nil => exact List.forall_mem_nil _
                | cons y rest => exact List.forall_mem_cons.mpr ⟨hx, hgoesOn⟩
              · obtain ⟨hlabels, hall⟩ := hwhole hdone
                exact ⟨congrArg (x.call.label :: ·) hlabels, List.forall_mem_cons.mpr ⟨hx, hall⟩⟩

/-- **The calls of a build are those its request fixes.**  Whatever the files are,
    whatever the tools do and however work done side by side gets its turns, a run
    goes through the phases of the plan in their order, through all of them if it
    answers; none is begun behind a call, apart from the probe, that failed or was
    not started, and an architecture makes no call behind its own that did; and a
    strip only ever follows a link that succeeded.  With one worker, or with one
    architecture, the calls made are an initial part of the order that the plan
    lists. -/
theorem run_obeys_plan (b : Builder) {f : RequestFields} {r : Request}
    (h : Request.ofFields f = .ok r) (w : World) :
    ∃ made, ((b.run r).run w).2.exchanges = w.exchanges ++ made ∧
      Obeys (∃ result, ((b.run r).run w).1 = .ok result) (r.plan b.toolchain) made ∧
      StripsBehindLinks made ∧
      (r.isPooled = false → ObeysInTurn (r.order b.toolchain) made
        (∃ result, ((b.run r).run w).1 = .ok result)) := by
  obtain ⟨made, hmade, hobeys⟩ := follows_run b (Request.inputs_ne_nil h) w
  refine ⟨made, hmade, hobeys, hobeys.stripsBehindLinks (stripsLinked_plan r b.toolchain),
    fun hturn => ?_⟩
  rw [plan_eq_sequence hturn] at hobeys
  exact hobeys.inTurn

/-- The fields of a request for a dynamic library: a source, an object, and the
    same two again. -/
def mixedFields : RequestFields where
  kind := "dylib"
  inputs := [.ofString "a.rb", .ofString "b.o", .ofString "a.rb", .ofString "b.o"]
  output := some (.ofString "out.dylib")

/-- The request of these fields. -/
def mixedRequest : Request where
  kind := .dylib
  inputs := [.ofString "a.rb", .ofString "b.o", .ofString "a.rb", .ofString "b.o"]
  output := some (.ofString "out.dylib")
  archs := [.x86_64]
  sdk := none
  frameworks := []
  linkerFlags := []
  static := false
  verbose := false
  jobs := 1

theorem ofFields_mixedFields : Request.ofFields mixedFields = .ok mixedRequest := rfl

/-- A builder whose tools all report success and leave the files alone. -/
def idleBuilder : Builder where
  host := { tools := fun _ _ files => (.exited 0 "", files) }
  locator := .fixed ⟨.ofString "macruby", .ofString "llc", .ofString "clang", .ofString "lipo",
    .ofString "nm", .ofString "strip"⟩

/-- A working directory with the inputs of `mixedRequest` and a place for scratch
    files. -/
def mixedWorld : World where
  files := ⟨["w"], [(["w"], .directory), (["w", "a.rb"], .file [] false),
    (["w", "b.o"], .file [] false), (["w", "tmp"], .directory)]⟩

theorem run_obeys_plan_mixed :
    Request.ofFields mixedFields = .ok mixedRequest ∧
      ∃ made, ((idleBuilder.run mixedRequest).run mixedWorld).2.exchanges
          = mixedWorld.exchanges ++ made ∧
        Obeys (∃ result, ((idleBuilder.run mixedRequest).run mixedWorld).1 = .ok result)
          (mixedRequest.plan idleBuilder.toolchain) made ∧
        StripsBehindLinks made ∧
        (mixedRequest.isPooled = false → ObeysInTurn (mixedRequest.order idleBuilder.toolchain) made
          (∃ result, ((idleBuilder.run mixedRequest).run mixedWorld).1 = .ok result)) :=
  ⟨ofFields_mixedFields, run_obeys_plan idleBuilder ofFields_mixedFields mixedWorld⟩

/-- The object is looked into once, and the source is compiled twice. -/
example : (mixedRequest.order {}).map (·.stage) =
    [.symbols, .probe, .frontend, .backend, .assemble, .merge, .frontend, .backend, .assemble,
      .merge, .glue, .link, .strip] := by decide

/-- The fields of a request for an object of two architectures, with two workers. -/
def pairFields : RequestFields where
  kind := "object"
  inputs := [.ofString "a.rb"]
  archs := ["i386", "x86_64"]
  jobs := 2

/-- The request of these fields. -/
def pairRequest : Request where
  kind := .object
  inputs := [.ofString "a.rb"]
  output := none
  archs := [.i386, .x86_64]
  sdk := none
  frameworks := []
  linkerFlags := []
  static := false
  verbose := false
  jobs := 2

theorem ofFields_pairFields : Request.ofFields pairFields = .ok pairRequest := rfl

/-- The turns of two workers that step by turns. -/
def crossingTurns : List Turn :=
  [.begin, .begin] ++ (List.replicate 9 [Turn.work 0, .work 1]).flatten

/-- A builder whose front end refuses `i386`, and whose two workers step by turns. -/
def crossingBuilder : Builder where
  host := {
    tools := fun _ c files =>
      (if c.stage = .frontend ∧ c.arch = some "i386" then .exited 3 "no" else .exited 0 "", files)
    turns := fun _ => crossingTurns }
  locator := idleBuilder.locator

/-- Side by side, the calls of the architectures get between each other, and a call
    is made behind one that failed. -/
theorem run_leaves_order :
    Request.ofFields pairFields = .ok pairRequest ∧
      ¬ ((crossingBuilder.run pairRequest).run mixedWorld).2.exchanges.map (·.call.label)
        <+: pairRequest.order crossingBuilder.toolchain ∧
      ∃ x ∈ ((crossingBuilder.run pairRequest).run mixedWorld).2.exchanges.dropLast,
        ¬ x.LetsGoOn :=
  ⟨ofFields_pairFields, by decide +kernel, by decide +kernel⟩

end AheadOfTime
