import AheadOfTime.Proofs.Exchanges
import AheadOfTime.Proofs.Quiet
import AheadOfTime.Proofs.Strands

/-! # Compiling for several architectures

    Every architecture has its own calls, in their order and as far as they come.
    Side by side the calls of the architectures interleave, and an architecture goes
    on when another one has failed; one after the other they follow each other up to
    the first failure.  `Compiler.Parted` says this of the exchanges and of the
    records, and `compileAll_parted` that compiling for the architectures of a
    compiler always comes to this. -/

namespace AheadOfTime

variable {α β : Type}

/-! ## What steps add -/

/-- Exchanges and records were only added, and the calls were recorded in their
    order. -/
def World.Grows (w v : World) : Prop :=
  ∃ made written, w.Recounts v made written ∧
    written.filter Record.isEchoed = made.map Exchange.invokeRecord

/-- The exchanges that were added by steps. -/
def exchangesOf (steps : List (World × World)) : List Exchange :=
  steps.flatMap fun s => s.2.exchanges.drop s.1.exchanges.length

/-- The records that were added by steps. -/
def recordsOf (steps : List (World × World)) : Log :=
  steps.flatMap fun s => s.2.log.drop s.1.log.length

theorem exchangesOf_append (steps more : List (World × World)) :
    exchangesOf (steps ++ more) = exchangesOf steps ++ exchangesOf more :=
  List.flatMap_append

theorem recordsOf_append (steps more : List (World × World)) :
    recordsOf (steps ++ more) = recordsOf steps ++ recordsOf more :=
  List.flatMap_append

/-- What the first of the steps has added comes first. -/
theorem exchangesOf_cons {w v : World} {made : List Exchange} {written : Log}
    (h : w.Recounts v made written) (later : List (World × World)) :
    exchangesOf ((w, v) :: later) = made ++ exchangesOf later := by
  rw [exchangesOf, List.flatMap_cons]
  dsimp only
  rw [h.exchanges, List.drop_left]
  rfl

theorem recordsOf_cons {w v : World} {made : List Exchange} {written : Log}
    (h : w.Recounts v made written) (later : List (World × World)) :
    recordsOf ((w, v) :: later) = written ++ recordsOf later := by
  rw [recordsOf, List.flatMap_cons]
  dsimp only
  rw [h.log, List.drop_left]
  rfl

/-- **Steps that only add** lead to a world with all that they added. -/
theorem World.Leads.recounts {w v : World} {steps : List (World × World)}
    (h : w.Leads steps v) (hgrows : ∀ s ∈ steps, s.1.Grows s.2) :
    w.Recounts v (exchangesOf steps) (recordsOf steps) ∧
      (recordsOf steps).filter Record.isEchoed
        = (exchangesOf steps).map Exchange.invokeRecord := by
  induction h with
  | nil => exact ⟨.refl _, rfl⟩
  | cons _ ih =>
      obtain ⟨⟨made, written, hfirst, hinvoked⟩, hlater⟩ := List.forall_mem_cons.mp hgrows
      obtain ⟨hrest, hinvokes⟩ := ih hlater
      rw [exchangesOf_cons hfirst, recordsOf_cons hfirst]
      refine ⟨hfirst.trans hrest, ?_⟩
      rw [List.filter_append, List.map_append, hinvoked, hinvokes]

/-- Every step of the strand does to the world what the relation says. -/
def Strand.Every (R : World → World → Prop) : Strand α → Prop
  | .done _ => True
  | .step act next => (∀ w, R w (act.run w).2) ∧ ∀ b, (next b).Every R

namespace Strand.Every

variable {R : World → World → Prop}

/-- A strand of one step, if that step does. -/
theorem one {act : Build α} (h : ∀ w, R w (act.run w).2) : (Strand.one act).Every R :=
  ⟨h, fun _ => trivial⟩

/-- Strands in a row, if each of them does. -/
theorem bind {s : Strand α} {f : α → Strand β} (hs : s.Every R) (hf : ∀ a, (f a).Every R) :
    (s.bind f).Every R := by
  induction s with
  | done a => exact hf a
  | step act next ih => exact ⟨hs.1, fun b => ih b (hs.2 b)⟩

/-- Every step that such a strand takes does what the relation says. -/
theorem of_takes {s : Strand α} (h : s.Every R) {steps : List (World × World)}
    {answer : Except Failure α} (htakes : Begun.Takes (.ok s) steps (.ended answer)) :
    ∀ p ∈ steps, R p.1 p.2 := by
  induction s generalizing steps with
  | done a =>
      rw [htakes.of_done.1]
      exact List.forall_mem_nil _
  | step act next ih =>
      obtain ⟨w, v, r, more, rfl, hrun, htakes⟩ := htakes.of_step
      have hstep := h.1 w
      rw [hrun] at hstep
      refine List.forall_mem_cons.mpr ⟨hstep, ?_⟩
      cases r with
      | ok b => exact ih b (h.2 b) htakes
      | error e =>
          rw [htakes.of_error.1]
          exact List.forall_mem_nil _

end Strand.Every

/-- What every step of every strand does, every step that was taken has done. -/
theorem Worked.every {ι : Type} {R : World → World → Prop} {pooled : Bool} {f : ι → Strand α}
    {labels : List ι} {w v : World} {answer : Except Failure (List α)}
    {portions : List (Portion ι α)} {whole : List (World × World)}
    (h : Worked pooled f labels w answer v portions whole) (hevery : ∀ i, (f i).Every R) :
    ∀ p ∈ whole, R p.1 p.2 := by
  intro p hp
  obtain ⟨steps, hsteps, hp⟩ := h.woven.mem_iff.mp hp
  obtain ⟨q, hq, rfl⟩ := List.mem_map.mp hsteps
  have hfollows := h.follows q hq
  unfold Portion.Follows at hfollows
  split at hfollows
  · rw [hfollows] at hp
    exact nomatch hp
  · exact (hevery q.label).of_takes hfollows p hp

/-! ## Calls in a row -/

/-- A command beside other work is the command, if nothing gets between. -/
@[simp] theorem Host.run_strand (host : Host) (c : Call) : (host.strand c).run = host.run c := by
  show (Strand.bind (.one (host.call c)) fun reply => .one (c.conclude reply)).run = _
  rw [Strand.run_bind, Strand.run_one]
  exact bind_congr fun reply => Strand.run_one (c.conclude reply)

/-- Of these calls such exchanges came about before the work ended, in a failure or
    in none. -/
inductive Performed (cs : List Call) : List Exchange → Option Failure → Prop where
  /-- All of them were made and let the work go on. -/
  | all {made : List Exchange} : made.map (·.call) = cs → (∀ x ∈ made, x.stop? = none) →
      Performed cs made none
  /-- The work was stopped by something else than a call. -/
  | refused {made : List Exchange} {e : Failure} : made.map (·.call) <+: cs →
      (∀ x ∈ made, x.stop? = none) → e.IsPlain → Performed cs made (some e)
  /-- The work was stopped by the last one that was made. -/
  | stopped {before : List Exchange} {x : Exchange} {e : Failure} :
      (before ++ [x]).map (·.call) <+: cs → (∀ y ∈ before, y.stop? = none) → x.stop? = some e →
      Performed cs (before ++ [x]) (some e)

namespace Performed

variable {cs ds : List Call} {made more : List Exchange} {e : Failure} {o : Option Failure}

/-- The calls that were made are the first ones. -/
theorem calls (h : Performed cs made o) : made.map (·.call) <+: cs := by
  cases h with
  | all hcalls => exact hcalls ▸ List.prefix_refl _
  | refused hcalls => exact hcalls
  | stopped hcalls => exact hcalls

/-- If there was no failure, all the calls were made. -/
theorem calls_eq (h : Performed cs made none) : made.map (·.call) = cs := by
  obtain ⟨hcalls, -⟩ | _ | _ := h
  exact hcalls

/-- Behind every call but the last one the work went on. -/
theorem goesOn (h : Performed cs made o) : ∀ x ∈ made.dropLast, x.stop? = none := by
  cases h with
  | all _ hgoesOn => exact fun x hx => hgoesOn x (List.dropLast_subset _ hx)
  | refused _ hgoesOn => exact fun x hx => hgoesOn x (List.dropLast_subset _ hx)
  | stopped _ hgoesOn =>
      rw [List.dropLast_concat]
      exact hgoesOn

/-- Calls behind others that were all made. -/
theorem append (h : Performed cs made none) (h' : Performed ds more o) :
    Performed (cs ++ ds) (made ++ more) o := by
  obtain ⟨rfl, hgoesOn⟩ | _ | _ := h
  cases h' with
  | all hcalls hmore =>
      refine .all ?_ (List.forall_mem_append.mpr ⟨hgoesOn, hmore⟩)
      rw [List.map_append, hcalls]
  | refused hcalls hmore hplain =>
      refine .refused ?_ (List.forall_mem_append.mpr ⟨hgoesOn, hmore⟩) hplain
      rw [List.map_append]
      exact (List.prefix_append_right_inj _).mpr hcalls
  | stopped hcalls hmore hstop =>
      rw [← List.append_assoc]
      refine .stopped ?_ (List.forall_mem_append.mpr ⟨hgoesOn, hmore⟩) hstop
      rw [List.append_assoc, List.map_append]
      exact (List.prefix_append_right_inj _).mpr hcalls

/-- What would have come behind a failure does not matter. -/
theorem cut (h : Performed cs made (some e)) (ds : List Call) :
    Performed (cs ++ ds) made (some e) := by
  cases h with
  | refused hcalls hgoesOn hplain =>
      exact .refused (hcalls.trans (List.prefix_append _ _)) hgoesOn hplain
  | stopped hcalls hgoesOn hstop =>
      exact .stopped (hcalls.trans (List.prefix_append _ _)) hgoesOn hstop

end Performed

/-- Whenever the strand comes to its end, it has made of these calls what
    `Performed` says, and written the records of its exchanges. -/
def Strand.Performs (cs : List Call) (s : Strand α) : Prop :=
  ∀ steps answer, Begun.Takes (.ok s) steps (.ended answer) →
    Performed cs (exchangesOf steps) (failure? answer) ∧
      recordsOf steps = (exchangesOf steps).flatMap Exchange.records

namespace Strand.Performs

variable {cs ds : List Call}

theorem pure (a : α) : (Strand.done a).Performs [] := by
  intro steps answer htakes
  obtain ⟨rfl, hend⟩ := htakes.of_done
  rw [Begun.ended_eq_ok_done hend]
  exact ⟨.all rfl (List.forall_mem_nil _), rfl⟩

/-- The calls of strands in a row are in a row. -/
theorem bind {s : Strand α} {f : α → Strand β} (hs : s.Performs cs)
    (hf : ∀ a, (f a).Performs ds) : (s.bind f).Performs (cs ++ ds) := by
  intro steps answer htakes
  rcases Strand.takes_bind htakes with ⟨e, rfl, hfirst⟩ | ⟨a, first, second, rfl, hfirst, hsecond⟩
  · obtain ⟨hperformed, hrecords⟩ := hs steps _ hfirst
    exact ⟨hperformed.cut ds, hrecords⟩
  · obtain ⟨hperformed, hrecords⟩ := hs first _ hfirst
    obtain ⟨hperformed', hrecords'⟩ := hf a second _ hsecond
    rw [exchangesOf_append, recordsOf_append, List.flatMap_append, hrecords, hrecords']
    exact ⟨hperformed.append hperformed', rfl⟩

/-- **A command beside other work** makes its one call, and ends as the exchange
    says. -/
theorem hostStrand (host : Host) {c : Call} (hargv : c.argv ≠ []) :
    (host.strand c).Performs [c] := by
  intro steps answer htakes
  have hcall : ∀ w v r, (host.call c).run w = (r, v) →
      r = .ok (host.exchanged c w).reply ∧
        w.Recounts v [host.exchanged c w] [(host.exchanged c w).invokeRecord] := by
    intro w v r hrun
    obtain ⟨u, hu, hworld⟩ := host.run_call_exchanged hargv w
    obtain ⟨rfl, rfl⟩ := Prod.mk.inj (hrun.symm.trans hu)
    exact ⟨rfl, by rw [hworld], by rw [hworld]⟩
  -- the strand calls in its first step and concludes in its second
  rcases Strand.takes_bind htakes with ⟨e, rfl, hfirst⟩ |
    ⟨reply, first, second, rfl, hfirst, hsecond⟩
  · obtain ⟨w, v, rfl, hrun⟩ := Strand.takes_one hfirst
    exact nomatch (hcall w v _ hrun).1
  · obtain ⟨w, v, rfl, hrun⟩ := Strand.takes_one hfirst
    obtain ⟨hreply, hrecounts⟩ := hcall w v _ hrun
    obtain ⟨u, u', rfl, hrun'⟩ := Strand.takes_one hsecond
    -- the world may have changed between the two, but not the reply
    obtain ⟨answer', hconclude, hanswer⟩ := (host.exchanged c w).run_conclude hargv u
    rw [Except.ok.inj hreply] at hrun'
    obtain ⟨rfl, rfl⟩ := Prod.mk.inj (hrun'.symm.trans hconclude)
    obtain ⟨ended, hended⟩ : ∃ ended, (host.exchanged c w).badStatus?.toList.map
        (host.exchanged c w).failureRecord = ended := ⟨_, rfl⟩
    have hend : u.Recounts { u with log := u.log ++ ended } [] ended :=
      ⟨(List.append_nil _).symm, rfl⟩
    rw [hended]
    rw [List.singleton_append, exchangesOf_cons hrecounts, exchangesOf_cons hend,
      recordsOf_cons hrecounts, recordsOf_cons hend, hanswer]
    refine ⟨?_, ?_⟩
    · rcases hstop : (host.exchanged c w).stop? with _ | e
      · exact .all rfl (List.forall_mem_singleton.mpr hstop)
      · have hnone : ∀ y ∈ ([] : List Exchange), y.stop? = none := List.forall_mem_nil _
        exact .stopped (List.prefix_refl _) hnone hstop
    · show [_] ++ (ended ++ []) = Exchange.records _ ++ []
      rw [List.append_nil, List.append_nil, ← hended]
      rfl

end Strand.Performs

/-! ## The work for one architecture -/

namespace Compiler

/-- The calls for one architecture: the front end writes the bitcode that the back
    end reads, and the back end the assembly that the C compiler reads. -/
def archCalls (c : Compiler) (source : Path) (e : EntryPoint) (arch : Arch)
    (bitcode assembly object : Path) : List Call :=
  [c.frontendCall source arch e bitcode, c.backendCall source arch bitcode assembly,
    c.assembleCall source arch assembly object]

/-- The calls for one architecture, once their files are known. -/
def translate (c : Compiler) (source : Path) (e : EntryPoint) (arch : Arch)
    (bitcode assembly object : Path) : Strand Path := do
  let _ ← c.host.strand (c.frontendCall source arch e bitcode)
  let _ ← c.host.strand (c.backendCall source arch bitcode assembly)
  let _ ← c.host.strand (c.assembleCall source arch assembly object)
  return object

theorem performs_translate (c : Compiler) (source : Path) (e : EntryPoint) (arch : Arch)
    (bitcode assembly object : Path) :
    (c.translate source e arch bitcode assembly object).Performs
      (c.archCalls source e arch bitcode assembly object) :=
  .bind (.hostStrand c.host (by simp [frontendCall])) fun _ =>
    .bind (.hostStrand c.host (by simp [backendCall])) fun _ =>
      .bind (.hostStrand c.host (by simp [assembleCall])) fun _ => .pure object

/-- What the calls for an architecture answer is the object they make. -/
theorem object_of_translate {c : Compiler} {source : Path} {e : EntryPoint} {arch : Arch}
    {bitcode assembly object path : Path} {steps : List (World × World)}
    (h : Begun.Takes (.ok (c.translate source e arch bitcode assembly object)) steps
      (.ended (.ok path))) : path = object := by
  have hbehind : ∀ {α : Type} {s : Strand α} {f : α → Strand Path} {steps},
      Begun.Takes (.ok (s.bind f)) steps (.ended (.ok path)) →
      ∃ a second, Begun.Takes (.ok (f a)) second (.ended (.ok path)) := by
    intro α s f steps h
    rcases Strand.takes_bind h with ⟨_, he, -⟩ | ⟨a, _, second, -, -, hsecond⟩
    · exact nomatch he
    · exact ⟨a, second, hsecond⟩
  obtain ⟨_, _, h⟩ := hbehind h
  obtain ⟨_, _, h⟩ := hbehind h
  obtain ⟨_, _, h⟩ := hbehind h
  obtain ⟨-, hend⟩ := h.of_done
  exact Strand.done.inj (Except.ok.inj hend)

/-- The ways in which the work for one architecture comes to its end. -/
inductive WorksFor (c : Compiler) (source : Path) (e : EntryPoint) (arch : Arch) :
    List (World × World) → Except Failure Path → Prop
  /-- A scratch file was refused before any call was made. -/
  | refused {steps : List (World × World)} {f : Failure} : exchangesOf steps = [] →
      recordsOf steps = [] → f.IsPlain → WorksFor c source e arch steps (.error f)
  /-- The files were handed out, and then the calls were made as far as they came. -/
  | furnished {u₁ v₁ u₂ v₂ u₃ v₃ : World} {bitcode assembly object : Path}
      {steps : List (World × World)} {answer : Except Failure Path} :
      (Build.allocate c.host (source.stem ++ "-" ++ arch.name) ".bc").run u₁ = (.ok bitcode, v₁) →
      (Build.allocate c.host (source.stem ++ "-" ++ arch.name) ".s").run u₂ = (.ok assembly, v₂) →
      (Build.allocate c.host (source.stem ++ "-" ++ arch.name) ".o").run u₃ = (.ok object, v₃) →
      Begun.Takes (.ok (c.translate source e arch bitcode assembly object)) steps
        (.ended answer) →
      WorksFor c source e arch ((u₁, v₁) :: (u₂, v₂) :: (u₃, v₃) :: steps) answer

end Compiler

/-- Handing out a scratch file adds nothing. -/
theorem Build.recounts_allocate {host : Host} {stem extension : String}
    {answer : Except Failure Path} {w v : World}
    (h : (Build.allocate host stem extension).run w = (answer, v)) : w.Recounts v [] [] := by
  obtain ⟨⟨files, directories, ids, scratch, -, hframe⟩, -⟩ :=
    Build.allocate_frame host stem extension w
  rw [h] at hframe
  rw [show v = _ from hframe]
  exact ⟨(List.append_nil _).symm, (List.append_nil _).symm⟩

namespace Compiler

/-- **The work for one architecture** asks for three files and makes three calls, as
    far as it comes. -/
theorem worksFor {c : Compiler} {source : Path} {e : EntryPoint} {arch : Arch}
    {steps : List (World × World)} {answer : Except Failure Path}
    (h : Begun.Takes (.ok (c.compileFor source e arch)) steps (.ended answer)) :
    c.WorksFor source e arch steps answer := by
  -- a file is refused, or handed out before the rest
  have hallocate : ∀ {extension : String} {f : Path → Strand Path} {steps},
      Begun.Takes (.ok ((Strand.one (Build.allocate c.host (source.stem ++ "-" ++ arch.name)
        extension)).bind f)) steps (.ended answer) →
      (∃ w v f, steps = [(w, v)] ∧ w.Recounts v [] [] ∧ answer = .error f ∧ f.IsPlain) ∨
      ∃ w v path more, steps = (w, v) :: more ∧ w.Recounts v [] [] ∧
        (Build.allocate c.host (source.stem ++ "-" ++ arch.name) extension).run w = (.ok path, v) ∧
        Begun.Takes (.ok (f path)) more (.ended answer) := by
    intro extension f steps h
    rcases Strand.takes_bind h with ⟨failure, rfl, hfirst⟩ | ⟨path, first, more, rfl, hfirst, hmore⟩
    · obtain ⟨w, v, rfl, hrun⟩ := Strand.takes_one hfirst
      refine .inl ⟨w, v, failure, rfl, Build.recounts_allocate hrun, rfl, ?_⟩
      exact (Build.allocate_frame c.host _ _ w).2 failure (congrArg Prod.fst hrun)
    · obtain ⟨w, v, rfl, hrun⟩ := Strand.takes_one hfirst
      exact .inr ⟨w, v, path, more, rfl, Build.recounts_allocate hrun, hrun, hmore⟩
  rcases hallocate h with ⟨_, _, _, rfl, h₁, rfl, hplain⟩ | ⟨_, _, bitcode, _, rfl, h₁, hrun₁, h⟩
  · exact .refused (exchangesOf_cons h₁ []) (recordsOf_cons h₁ []) hplain
  rcases hallocate h with ⟨_, _, _, rfl, h₂, rfl, hplain⟩ | ⟨_, _, assembly, _, rfl, h₂, hrun₂, h⟩
  · refine .refused ?_ ?_ hplain
    · rw [exchangesOf_cons h₁, exchangesOf_cons h₂]
      rfl
    · rw [recordsOf_cons h₁, recordsOf_cons h₂]
      rfl
  rcases hallocate h with ⟨_, _, _, rfl, h₃, rfl, hplain⟩ | ⟨_, _, object, _, rfl, h₃, hrun₃, h⟩
  · refine .refused ?_ ?_ hplain
    · rw [exchangesOf_cons h₁, exchangesOf_cons h₂, exchangesOf_cons h₃]
      rfl
    · rw [recordsOf_cons h₁, recordsOf_cons h₂, recordsOf_cons h₃]
      rfl
  exact .furnished hrun₁ hrun₂ hrun₃ h

/-- The work for one architecture, with nothing between its steps. -/
theorem run_compileFor (c : Compiler) (source : Path) (e : EntryPoint) (arch : Arch) :
    (c.compileFor source e arch).run = (do
      let bitcode ← Build.allocate c.host (source.stem ++ "-" ++ arch.name) ".bc"
      let assembly ← Build.allocate c.host (source.stem ++ "-" ++ arch.name) ".s"
      let object ← Build.allocate c.host (source.stem ++ "-" ++ arch.name) ".o"
      let _ ← c.host.run (c.frontendCall source arch e bitcode)
      let _ ← c.host.run (c.backendCall source arch bitcode assembly)
      let _ ← c.host.run (c.assembleCall source arch assembly object)
      return object) := by
  simp only [compileFor, bind, Strand.run_bind, Strand.run_one, Host.run_strand]
  rfl

/-- Whatever step the work for an architecture takes, it does to the world what the
    relation says. -/
structure EachStep (c : Compiler) (R : World → World → Prop) : Prop where
  allocate : ∀ stem, ∀ extension ∈ [".bc", ".s", ".o"], ∀ w,
    R w ((Build.allocate c.host stem extension).run w).2
  call : ∀ call : Call, call.argv ≠ [] → ∀ w, R w ((c.host.call call).run w).2
  conclude : ∀ call : Call, call.argv ≠ [] → ∀ reply w, R w ((call.conclude reply).run w).2

/-- Whatever the steps for an architecture do, every step of its strand does. -/
theorem every_compileFor {c : Compiler} {R : World → World → Prop} (h : c.EachStep R)
    (source : Path) (e : EntryPoint) (arch : Arch) : (c.compileFor source e arch).Every R := by
  have hallocate : ∀ stem, ∀ extension ∈ [".bc", ".s", ".o"],
      (Strand.one (Build.allocate c.host stem extension)).Every R :=
    fun stem extension hin => .one (h.allocate stem extension hin)
  have hstrand : ∀ call : Call, call.argv ≠ [] → (c.host.strand call).Every R :=
    fun call hargv => .bind (.one (h.call call hargv)) fun reply =>
      .one (h.conclude call hargv reply)
  refine .bind (hallocate _ _ (by simp)) fun bitcode => .bind (hallocate _ _ (by simp))
    fun assembly => .bind (hallocate _ _ (by simp)) fun object => ?_
  exact .bind (hstrand _ (by simp [frontendCall])) fun _ =>
    .bind (hstrand _ (by simp [backendCall])) fun _ =>
      .bind (hstrand _ (by simp [assembleCall])) fun _ => trivial

/-- Work for an architecture adds exchanges and records, and nothing takes them
    away. -/
theorem eachStep_grows (c : Compiler) : c.EachStep World.Grows where
  allocate := fun stem extension _ w =>
    ⟨[], [], Build.recounts_allocate (Prod.eta ((Build.allocate c.host stem extension).run w)).symm,
      rfl⟩
  call := fun call hargv w => by
    obtain ⟨v, hrun, hworld⟩ := c.host.run_call_exchanged hargv w
    rw [hrun]
    exact ⟨_, _, ⟨by rw [hworld], by rw [hworld]⟩, rfl⟩
  conclude := fun call hargv reply w => by
    obtain ⟨answer, hrun, -⟩ := (⟨call, w.files, reply⟩ : Exchange).run_conclude hargv w
    rw [hrun]
    refine ⟨[], _, ⟨(List.append_nil _).symm, rfl⟩, ?_⟩
    rw [List.map_nil, List.filter_eq_nil_iff]
    intro record hrecord
    obtain ⟨status, -, rfl⟩ := List.mem_map.mp hrecord
    exact Bool.false_ne_true

end Compiler

/-! ## The work for all architectures -/

/-- The part of an architecture in a compilation: its exchanges, and its end unless
    it was called off. -/
structure Part where
  arch : Arch
  made : List Exchange
  outcome : Option (Except Failure Path)

namespace Compiler

/-- The exchanges are those of the architecture, as far as its work came. -/
inductive Does (c : Compiler) (source : Path) (e : EntryPoint) : Part → Prop where
  | calledOff (arch : Arch) : Does c source e ⟨arch, [], none⟩
  | made {arch : Arch} {bitcode assembly object : Path} {made : List Exchange} :
      Performed (c.archCalls source e arch bitcode assembly object) made none →
      Does c source e ⟨arch, made, some (.ok object)⟩
  | failed {arch : Arch} {bitcode assembly object : Path} {made : List Exchange} {f : Failure} :
      Performed (c.archCalls source e arch bitcode assembly object) made (some f) →
      Does c source e ⟨arch, made, some (.error f)⟩

/-- What a strand of the compiler comes to. -/
def partOf (p : Portion Arch Path) : Part := ⟨p.label, exchangesOf p.steps, p.outcome⟩

theorem does_partOf {c : Compiler} {source : Path} {e : EntryPoint} {p : Portion Arch Path}
    (h : p.Follows (c.compileFor source e)) :
    c.Does source e (partOf p) ∧
      recordsOf p.steps = (partOf p).made.flatMap Exchange.records := by
  obtain ⟨arch, steps, outcome⟩ := p
  cases outcome with
  | none =>
      obtain rfl : steps = [] := h
      exact ⟨.calledOff arch, rfl⟩
  | some answer =>
      cases worksFor h with
      | @refused _ f hexchanges hrecords hplain =>
          rw [partOf]
          dsimp only
          rw [hexchanges, hrecords]
          -- any paths will do, as no call was made
          have hnone : Performed (c.archCalls source e arch source source source) [] (some f) :=
            .refused List.nil_prefix (List.forall_mem_nil _) hplain
          exact ⟨.failed hnone, rfl⟩
      | furnished h₁ h₂ h₃ htakes =>
          obtain ⟨hperformed, hrecords⟩ := c.performs_translate source e arch _ _ _ _ _ htakes
          rw [partOf]
          dsimp only
          rw [exchangesOf_cons (Build.recounts_allocate h₁),
            exchangesOf_cons (Build.recounts_allocate h₂),
            exchangesOf_cons (Build.recounts_allocate h₃),
            recordsOf_cons (Build.recounts_allocate h₁),
            recordsOf_cons (Build.recounts_allocate h₂),
            recordsOf_cons (Build.recounts_allocate h₃)]
          refine ⟨?_, hrecords⟩
          cases answer with
          | error f => exact .failed hperformed
          | ok path =>
              rw [object_of_translate htakes]
              exact .made hperformed

/-- What compiling for the architectures comes to: every architecture has its part,
    and the exchanges and the records of the parts interleave, where the calls are
    recorded in their order.  If the architectures are not compiled side by side,
    the parts follow each other. -/
structure Parted (c : Compiler) (source : Path) (e : EntryPoint) (w : World)
    (answer : Except Failure (List Path)) (v : World) (parts : List Part)
    (made : List Exchange) (written : Log) : Prop where
  archs : parts.map Part.arch = c.archs
  does : ∀ p ∈ parts, c.Does source e p
  recounts : w.Recounts v made written
  woven : Interleaves (parts.map Part.made) made
  recorded : Interleaves (parts.map fun p => p.made.flatMap Exchange.records) written
  invoked : written.filter Record.isEchoed = made.map Exchange.invokeRecord
  inTurn : c.isPooled = false → made = (parts.map Part.made).flatten ∧
    written = made.flatMap Exchange.records
  decided : Decided c.isPooled (parts.map Part.outcome) answer

namespace Parted

variable {c : Compiler} {source : Path} {e : EntryPoint} {w v : World} {parts : List Part}
  {made : List Exchange} {written : Log}

/-- If there is an answer, every architecture has its object. -/
theorem answered {objects : List Path}
    (h : c.Parted source e w (.ok objects) v parts made written) :
    ∀ p ∈ parts, ∃ object, p.outcome = some (.ok object) := by
  intro p hp
  have hin : p.outcome ∈ parts.map Part.outcome := List.mem_map_of_mem hp
  rw [h.decided.eq_of_ok] at hin
  obtain ⟨object, -, hobject⟩ := List.mem_map.mp hin
  exact ⟨object, hobject.symm⟩

/-- If there is a failure, it is that of an architecture, and those before it have
    their objects.  Those behind it were not begun, unless the architectures are
    compiled side by side. -/
theorem failed {f : Failure} (h : c.Parted source e w (.error f) v parts made written) :
    ∃ done p others, parts = done ++ p :: others ∧
      (∀ q ∈ done, ∃ object, q.outcome = some (.ok object)) ∧ p.outcome = some (.error f) ∧
      (c.isPooled = false → ∀ q ∈ others, q.made = []) := by
  obtain ⟨-, hdoes, -, -, -, -, -, hdecided⟩ := h
  generalize houtcomes : parts.map Part.outcome = outcomes at hdecided
  obtain _ | ⟨objects, _, later, hlater⟩ := hdecided
  obtain ⟨done, rest, rfl, hdone, hrest⟩ := List.map_eq_append_iff.mp houtcomes
  obtain ⟨p, others, rfl, hp, hothers⟩ := List.map_eq_cons_iff.mp hrest
  refine ⟨done, p, others, rfl, fun q hq => ?_, hp, fun hturn q hq => ?_⟩
  · have hin : q.outcome ∈ done.map Part.outcome := List.mem_map_of_mem hq
    rw [hdone] at hin
    obtain ⟨object, -, hobject⟩ := List.mem_map.mp hin
    exact ⟨object, hobject.symm⟩
  · have hnone : q.outcome = none := hlater hturn _ (hothers ▸ List.mem_map_of_mem hq)
    have hq := hdoes q (List.mem_append_right _ (List.mem_cons_of_mem _ hq))
    cases hq with
    | calledOff => rfl
    | made => exact nomatch hnone
    | failed => exact nomatch hnone

end Parted

/-- Without several workers the architectures are compiled one after the other. -/
theorem compileAll_of_not_pooled (c : Compiler) (h : c.isPooled = false) (source : Path)
    (e : EntryPoint) :
    c.compileAll source e = Strand.inOrder (c.archs.map (c.compileFor source e)) := by
  unfold compileAll
  rw [h]
  rfl

/-- The world with the workers of a compilation taken note of. -/
def hired (c : Compiler) (w : World) : World :=
  if c.isPooled then { w with pools := w.pools ++ [min c.jobs c.archs.length] } else w

/-- Compiling for the architectures is work on strands, one for each of them. -/
theorem worked_compileAll {c : Compiler} {source : Path} {e : EntryPoint} {w v : World}
    {answer : Except Failure (List Path)} (h : (c.compileAll source e).run w = (answer, v)) :
    ∃ portions whole, Worked c.isPooled (c.compileFor source e) c.archs (c.hired w) answer v
      portions whole := by
  unfold compileAll at h
  unfold hired
  cases hpooled : c.isPooled with
  | false =>
      simp only [hpooled, Bool.false_eq_true, if_false] at h ⊢
      exact Strand.worked_inOrder _ c.archs h
  | true =>
      simp only [hpooled, if_true] at h ⊢
      rw [run_bind_ok (run_modify _ w), run_bind_ok (run_get _)] at h
      exact Strand.worked_sideBySide _ c.archs _ _ h

theorem hired_frame (c : Compiler) (w : World) : ∃ pools, c.hired w = { w with pools } := by
  unfold hired
  split
  · exact ⟨_, rfl⟩
  · exact ⟨w.pools, rfl⟩

/-- What lasts from step to step lasts while the architectures are compiled. -/
theorem lasts_compileAll {c : Compiler} {R : World → World → Prop} (hR : Lasting R)
    (hstep : c.EachStep R) (hhired : ∀ w, R w (c.hired w)) (source : Path) (e : EntryPoint)
    (w : World) : R w ((c.compileAll source e).run w).2 := by
  rcases hrun : (c.compileAll source e).run w with ⟨answer, v⟩
  obtain ⟨portions, whole, hworked⟩ := worked_compileAll hrun
  exact hR.trans (hhired w)
    (hworked.leads.lasts hR (hworked.every (every_compileFor hstep source e)))

/-- **Compiling for the architectures** comes to their parts, interleaved. -/
theorem parted_compileAll {c : Compiler} {source : Path} {e : EntryPoint} {w v : World}
    {answer : Except Failure (List Path)} (h : (c.compileAll source e).run w = (answer, v)) :
    ∃ parts made written, c.Parted source e w answer v parts made written := by
  obtain ⟨portions, whole, hworked⟩ := worked_compileAll h
  obtain ⟨pools, hhired⟩ := c.hired_frame w
  obtain ⟨hrecounts, hinvoked⟩ :=
    hworked.leads.recounts (hworked.every (every_compileFor c.eachStep_grows source e))
  rw [hhired] at hrecounts
  have hdoes := fun p hp => does_partOf (hworked.follows p hp)
  -- what the parts have made is what their portions' steps have added
  have hmade : (portions.map partOf).map Part.made
      = (portions.map Portion.steps).map exchangesOf := by
    rw [List.map_map, List.map_map]
    rfl
  have hwritten : ((portions.map partOf).map fun p => p.made.flatMap Exchange.records)
      = (portions.map Portion.steps).map recordsOf := by
    rw [List.map_map, List.map_map]
    exact List.map_congr_left fun p hp => (hdoes p hp).2.symm
  refine ⟨portions.map partOf, exchangesOf whole, recordsOf whole, ?_, ?_,
    ⟨hrecounts.exchanges, hrecounts.log⟩, ?_, ?_, hinvoked, fun hturn => ?_, ?_⟩
  · rw [List.map_map]
    exact hworked.labels
  · exact List.forall_mem_map.mpr fun p hp => (hdoes p hp).1
  · rw [hmade]
    exact hworked.woven.flatMap _
  · rw [hwritten]
    exact hworked.woven.flatMap _
  · have hexchanges : exchangesOf whole = ((portions.map partOf).map Part.made).flatten := by
      rw [hmade, hworked.inTurn hturn]
      exact flatMap_flatten _ _
    refine ⟨hexchanges, ?_⟩
    have hrecords : recordsOf whole
        = ((portions.map partOf).map fun p => p.made.flatMap Exchange.records).flatten := by
      rw [hwritten, hworked.inTurn hturn]
      exact flatMap_flatten _ _
    rw [hrecords, hexchanges, flatMap_flatten, List.map_map, List.map_map, List.map_map]
    rfl
  · rw [List.map_map]
    exact hworked.decided

end Compiler

end AheadOfTime
