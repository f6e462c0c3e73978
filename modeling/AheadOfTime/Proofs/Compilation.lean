import AheadOfTime.Proofs.Fresh

/-! # The calls of a compilation

    A compilation hands files from call to call, by architecture, and merges the
    last ones.  `Compiler.Calls` says which calls these are, once the files and the
    entry point are known: those of every architecture in their order, and the merge
    behind them all.

    The work is put together from the shares of the architectures.  Their calls may
    get between each other, and so may the files that are handed out to them: what
    keeps the files apart is that every one is named after an identifier drawn for
    it alone.  `Compiler.shared_compileAll` says this of the work for all
    architectures, whether it fails or not. -/

namespace AheadOfTime

variable {α β : Type}

/-! ## Compilations -/

/-- The share of one architecture in a compilation: the files that its tools hand
    on to one another. -/
structure Share where
  arch : Arch
  bitcode : Path
  assembly : Path
  object : Path

/-- The files of a share, in the order in which they are written. -/
def Share.files (s : Share) : List Path := [s.bitcode, s.assembly, s.object]

/-- A compilation: what is compiled, under which entry point, by which shares, and
    where to. -/
structure Compilation where
  source : Path
  entryPoint : EntryPoint
  shares : List Share
  destination : Path

/-- The files that a compilation hands from call to call. -/
def Compilation.files (u : Compilation) : List Path := u.shares.flatMap Share.files

namespace Compiler

/-- The calls of a share: the front end writes the bitcode that the back end
    reads, and the back end the assembly that the C compiler reads. -/
def shareCalls (c : Compiler) (source : Path) (e : EntryPoint) (s : Share) : List Call :=
  c.archCalls source e s.arch s.bitcode s.assembly s.object

/-- These are the calls of the shares, those of each share in their order.  One share
    follows the other, unless the architectures are compiled side by side. -/
structure Weaves (c : Compiler) (source : Path) (e : EntryPoint) (shares : List Share)
    (cs : List Call) : Prop where
  woven : Interleaves (shares.map (c.shareCalls source e)) cs
  inTurn : c.isPooled = false → cs = shares.flatMap (c.shareCalls source e)

/-- Every share has begun with its calls, and these are those that were made. -/
def Begins (c : Compiler) (source : Path) (e : EntryPoint) (shares : List Share)
    (cs : List Call) : Prop :=
  ∃ parts : List (Share × List Call), parts.map Prod.fst = shares ∧
    (∀ p ∈ parts, p.2 <+: c.shareCalls source e p.1) ∧ Interleaves (parts.map Prod.snd) cs

/-- The call that merges the objects of a compilation. -/
def mergeOf (c : Compiler) (u : Compilation) : Call :=
  Host.mergeCall c.tools.lipo (u.shares.map Share.object) u.destination (some u.source.toString)

/-- The calls of a compilation: there is a share for each architecture in its order,
    and behind the calls of the shares their objects are merged to the destination. -/
def Calls (c : Compiler) (u : Compilation) (cs : List Call) : Prop :=
  u.shares.map Share.arch = c.archs ∧
    ∃ front, c.Weaves u.source u.entryPoint u.shares front ∧ cs = front ++ [c.mergeOf u]

/-- The calls of a compilation that was broken off before its merge. -/
def Breaks (c : Compiler) (u : Compilation) (cs : List Call) : Prop :=
  (u.shares.map Share.arch).Sublist c.archs ∧ c.Begins u.source u.entryPoint u.shares cs

/-- The calls of these compilations, one after the other, where the last one may
    have been broken off before its merge. -/
inductive Traces (c : Compiler) : List Compilation → List Call → Prop where
  | nil : Traces c [] []
  | broken {u : Compilation} {cs : List Call} : c.Breaks u cs → Traces c [u] cs
  | cons {u : Compilation} {us : List Compilation} {own cs : List Call} :
      c.Calls u own → Traces c us cs → Traces c (u :: us) (own ++ cs)

/-- The calls of these compilations, which were all finished. -/
inductive Whole (c : Compiler) : List Compilation → List Call → Prop where
  | nil : Whole c [] []
  | cons {u : Compilation} {us : List Compilation} {own cs : List Call} :
      c.Calls u own → Whole c us cs → Whole c (u :: us) (own ++ cs)

/-- Compilations that were finished may stand before others. -/
theorem Whole.append_traces {c : Compiler} {us us' : List Compilation} {cs cs' : List Call}
    (h : c.Whole us cs) (h' : c.Traces us' cs') : c.Traces (us ++ us') (cs ++ cs') := by
  induction h with
  | nil => exact h'
  | cons hu _ ih =>
      rw [List.append_assoc]
      exact .cons hu ih

/-- Finished compilations in a row. -/
theorem Whole.append {c : Compiler} {us us' : List Compilation} {cs cs' : List Call}
    (h : c.Whole us cs) (h' : c.Whole us' cs') : c.Whole (us ++ us') (cs ++ cs') := by
  induction h with
  | nil => exact h'
  | cons hu _ ih =>
      rw [List.append_assoc]
      exact .cons hu ih

/-- Those that were finished are traces without a break. -/
theorem Whole.traces {c : Compiler} {us : List Compilation} {cs : List Call}
    (h : c.Whole us cs) : c.Traces us cs := by
  have htraces := h.append_traces .nil
  rwa [List.append_nil, List.append_nil] at htraces

theorem Whole.one {c : Compiler} {u : Compilation} {cs : List Call} (h : c.Calls u cs) :
    c.Whole [u] cs := by
  have hone : c.Whole [u] (cs ++ []) := .cons h .nil
  rwa [List.append_nil] at hone

/-- Shares that have made all their calls have begun with them. -/
theorem Weaves.begins {c : Compiler} {source : Path} {e : EntryPoint} {shares : List Share}
    {cs : List Call} (h : c.Weaves source e shares cs) : c.Begins source e shares cs := by
  refine ⟨shares.map fun s => (s, c.shareCalls source e s), ?_, ?_, ?_⟩
  · rw [List.map_map]
    exact List.map_id _
  · exact List.forall_mem_map.mpr fun s _ => List.prefix_refl _
  · rw [List.map_map]
    exact h.woven

end Compiler

/-- Whether a call compiles: whether it is made for a compilation. -/
def Call.compiles (c : Call) : Bool := [.frontend, .backend, .assemble, .merge].contains c.stage

/-- The calls for compilations among those made. -/
def compileCalls (made : List Exchange) : List Call := (made.map (·.call)).filter Call.compiles

/-- The calls of compilations are told from others one by one. -/
theorem compileCalls_append (made more : List Exchange) :
    compileCalls (made ++ more) = compileCalls made ++ compileCalls more := by
  unfold compileCalls
  rw [List.map_append, List.filter_append]

namespace Compiler

variable {c : Compiler} {source : Path} {e : EntryPoint} {shares : List Share} {cs : List Call}

/-- Before the merge every call compiles, and none merges. -/
theorem Begins.stage {call : Call} (h : c.Begins source e shares cs) (hcall : call ∈ cs) :
    call.compiles = true ∧ call.stage ≠ .merge := by
  obtain ⟨parts, -, hparts, hwoven⟩ := h
  obtain ⟨own, hown, hcall⟩ := hwoven.mem_iff.mp hcall
  obtain ⟨p, hp, rfl⟩ := List.mem_map.mp hown
  have hin := (hparts p hp).subset hcall
  have hall : ∀ call ∈ c.shareCalls source e p.1, call.compiles = true ∧ call.stage ≠ .merge := by
    simp [shareCalls, archCalls, frontendCall, backendCall, assembleCall, Call.compiles]
  exact hall call hin

/-- What was called before the merge compiles. -/
theorem Begins.compileCalls {made : List Exchange}
    (h : c.Begins source e shares (made.map (·.call))) :
    compileCalls made = made.map (·.call) :=
  List.filter_eq_self.mpr fun _ hcall => (h.stage hcall).1

end Compiler

/-! ## Steps that make calls -/

namespace Build

/-- The step makes these calls one after the other, as far as it gets, and all of
    them if it answers; it changes nothing but the files, the log and the
    exchanges. -/
def Makes (cs : List Call) (act : Build α) : Prop := ∀ w, ∃ made files log,
  (act.run w).2 = { w with files, log, exchanges := w.exchanges ++ made } ∧
    made.map (·.call) <+: cs ∧ (failure? (act.run w).1 = none → made.map (·.call) = cs)

theorem makes_pure (a : α) : Makes [] (pure a : Build α) :=
  fun w => ⟨[], w.files, w.log, by rw [List.append_nil]; rfl, List.prefix_refl _, fun _ => rfl⟩

/-- What is done on the disk is no call. -/
theorem makes_onDisk (act : Disk α) : Makes [] (onDisk act) := by
  intro w
  rw [run_onDisk]
  rcases act.run w.files with ⟨fault | a, files⟩
  · exact ⟨[], files, w.log, by rw [List.append_nil], List.prefix_refl _, nofun⟩
  · exact ⟨[], files, w.log, by rw [List.append_nil], List.prefix_refl _, fun _ => rfl⟩

/-- A step that only complains may stand for any calls. -/
theorem makes_complain (p : Problem) (cs : List Call) : Makes cs (complain p : Build α) :=
  fun w => ⟨[], w.files, w.log, by rw [List.append_nil]; rfl, List.nil_prefix, nofun⟩

/-- A call that is made is that call. -/
theorem makes_hostRun (host : Host) (c : Call) : Makes [c] (host.run c) := by
  intro w
  have hcalled := host.called c w
  generalize (host.run c).run w = outcome at hcalled ⊢
  cases hcalled with
  | unnamed => exact ⟨[], w.files, w.log, by rw [List.append_nil], List.nil_prefix, nofun⟩
  | missing | failed | rejected | answered =>
      exact ⟨[host.exchanged c w], _, _, rfl, List.prefix_refl _, fun _ => rfl⟩

/-- The calls of one step, and then those of the next one. -/
theorem Makes.bind {cs ds : List Call} {x : Build α} {f : α → Build β} (hx : Makes cs x)
    (hf : ∀ a, Makes ds (f a)) : Makes (cs ++ ds) (x >>= f) := by
  intro w
  obtain ⟨made, files, log, hworld, hpart, hwhole⟩ := hx w
  rcases hrun : x.run w with ⟨e | a, v⟩
  · rw [hrun] at hworld
    rw [run_bind_error hrun]
    exact ⟨made, files, log, hworld, hpart.trans (List.prefix_append _ _), nofun⟩
  · rw [hrun] at hworld hwhole
    rw [run_bind_ok hrun]
    obtain ⟨more, files', log', hworld', hpart', hwhole'⟩ := hf a v
    have hmade := hwhole rfl
    refine ⟨made ++ more, files', log', ?_, ?_, fun hnone => ?_⟩
    · rw [hworld', show v = _ from hworld, List.append_assoc]
    · rw [List.map_append, hmade]
      exact (List.prefix_append_right_inj cs).mpr hpart'
    · rw [List.map_append, hmade, hwhole' hnone]

/-- What is made of the answer adds no call. -/
theorem Makes.map {cs : List Call} {x : Build α} (hx : Makes cs x) (f : α → β) :
    Makes cs (x >>= fun a => pure (f a)) := by
  have h := hx.bind fun a => makes_pure (f a)
  rw [List.append_nil] at h
  exact h

end Build

/-- Merging makes one call, if there is something to merge. -/
theorem Host.makes_mergeObjects (host : Host) (lipo : Path) (objects : List Path) (output : Path)
    (input : Option String) : Build.Makes [mergeCall lipo objects output input]
      (host.mergeObjects lipo objects output input) := by
  have hmerge : Build.Makes [mergeCall lipo objects output input] (do
      Build.onDisk (Disk.makeDirectories output.parent)
      let _ ← host.run (mergeCall lipo objects output input)
      return output) :=
    (Build.makes_onDisk _).bind fun _ =>
      (Build.makes_hostRun host _).map fun _ => output
  unfold mergeObjects
  by_cases hnone : objects = []
  · rw [if_pos hnone]
    exact (Build.makes_complain _ []).bind fun _ => hmerge
  · rw [if_neg hnone]
    exact hmerge

/-! ## Scratch files of a stretch -/

/-- Between the worlds these files were handed out, maybe among others: they are named
    after identifiers drawn one after the other, in the one directory of the
    session. -/
structure World.Furnishes (host : Host) (w v : World) (files : List Path) : Prop where
  stays : w.Stays v
  scratchIds : w.scratchIds ≤ v.scratchIds
  made : files ≠ [] → v.scratch.directory ≠ none
  numbered : ∀ d, v.WorksIn d → ∃ all, files.Subperm all ∧
    Numbered host d w.scratchIds v.scratchIds all

namespace World.Furnishes

variable {host : Host} {u v w : World} {files more : List Path}

theorem none (hstays : w.Stays v) (hids : w.scratchIds ≤ v.scratchIds) :
    w.Furnishes host v [] :=
  ⟨hstays, hids, fun hne => absurd rfl hne, fun _ _ => ⟨[], List.Subperm.refl _, .nil hids⟩⟩

/-- Files of two stretches in a row. -/
theorem trans (h : u.Furnishes host v files) (h' : v.Furnishes host w more) :
    u.Furnishes host w (files ++ more) where
  stays := h.stays.trans h'.stays
  scratchIds := Nat.le_trans h.scratchIds h'.scratchIds
  made := fun hne => by
    by_cases hfiles : files = []
    · exact h'.made fun hmore => hne (by rw [hfiles, hmore]; rfl)
    · exact h'.stays.directory_ne_none (h.made hfiles)
  numbered := fun d hd => by
    obtain ⟨all, hall, hnumbered⟩ := h.numbered d (hd.earlier h'.stays)
    obtain ⟨all', hall', hnumbered'⟩ := h'.numbered d hd
    exact ⟨all ++ all', hall.append hall', hnumbered.append hnumbered'⟩

/-- Before and behind it the session may go on. -/
theorem behind (h : v.Furnishes host w files) (hstays : u.Stays v)
    (hids : u.scratchIds ≤ v.scratchIds) : u.Furnishes host w files :=
  (none hstays hids).trans h

/-- Behind it the session may go on. -/
theorem before (h : u.Furnishes host v files) (hstays : v.Stays w)
    (hids : v.scratchIds ≤ w.scratchIds) : u.Furnishes host w files := by
  have hall := h.trans (none hstays hids)
  rwa [List.append_nil] at hall

/-- Some of the files are files of the stretch too. -/
theorem fewer (h : w.Furnishes host v files) (hfewer : more.Subperm files) :
    w.Furnishes host v more where
  stays := h.stays
  scratchIds := h.scratchIds
  made := fun hne => h.made fun hnone => hne (List.subperm_nil.mp (hnone ▸ hfewer))
  numbered := fun d hd => by
    obtain ⟨all, hall, hnumbered⟩ := h.numbered d hd
    exact ⟨all, hfewer.trans hall, hnumbered⟩

/-- **A file that is handed out** has a name of its own. -/
theorem allocate {stem extension : String} {path : Path}
    (hextension : extension ∈ Scratch.extensions)
    (h : (Build.allocate host stem extension).run w = (.ok path, v)) :
    w.Furnishes host v [path] := by
  have hstays := Build.stays_allocate host stem extension w
  have hhands := Build.handsOut host stem extension w
  rw [h] at hstays hhands
  cases hhands with
  | @given directory _ u _ hdirectory hpath =>
      have hids : u.scratchIds = w.scratchIds := by
        have hgives := Build.givesDirectory w
        rw [hdirectory] at hgives
        cases hgives with
        | standing | made => rfl
      have hmade := (Build.scratchDirectory_ok hdirectory).1
      refine ⟨hstays, hids ▸ Nat.le_succ _, fun _ => ?_, fun d hd => ?_⟩
      · show u.scratch.directory ≠ Option.none
        rw [hmade]
        exact nofun
      · rw [← hd directory hmade, hpath, hids]
        exact ⟨_, List.Subperm.refl _, .cons stem (Nat.lt_succ_self _) hextension
          (.nil (Nat.le_of_eq (congrArg (· + 1) hids).symm))⟩

end World.Furnishes

/-- A file that is handed out is taken note of in the session. -/
theorem Build.scratchFiles_of_allocate {host : Host} {stem extension : String} {path : Path}
    {w v : World} (h : (allocate host stem extension).run w = (.ok path, v)) :
    v.scratch.files = w.scratch.files ++ [path] := by
  have hhands := handsOut host stem extension w
  rw [h] at hhands
  cases hhands with
  | @given directory _ u _ hdirectory _ =>
      have hgives := givesDirectory w
      rw [hdirectory] at hgives
      cases hgives with
      | standing | made => rfl

/-- The files that were handed out in steps. -/
def filesOf (steps : List (World × World)) : List Path :=
  steps.flatMap fun s => s.2.scratch.files.drop s.1.scratch.files.length

/-- Some files are handed out, and no entry point is drawn. -/
def World.HandsOut (host : Host) (w v : World) : Prop :=
  v.draws = w.draws ∧
    ∃ files, v.scratch.files = w.scratch.files ++ files ∧ w.Furnishes host v files

/-- **What steps hand out** adds up. -/
theorem World.Leads.furnishes {host : Host} {w v : World} {steps : List (World × World)}
    (h : w.Leads steps v) (hsteps : ∀ s ∈ steps, s.1.HandsOut host s.2) :
    v.draws = w.draws ∧ w.Furnishes host v (filesOf steps) := by
  induction h with
  | nil => exact ⟨rfl, .none (.refl _) (Nat.le_refl _)⟩
  | cons _ ih =>
      obtain ⟨⟨hdraws, files, hfiles, hfirst⟩, hlater⟩ := List.forall_mem_cons.mp hsteps
      obtain ⟨hdraws', hrest⟩ := ih hlater
      refine ⟨hdraws'.trans hdraws, ?_⟩
      rw [filesOf, List.flatMap_cons]
      dsimp only
      rw [hfiles, List.drop_left]
      exact hfirst.trans hrest

namespace Compiler

/-- Each step for an architecture hands out what it allocates, and no more. -/
theorem eachStep_handsOut (c : Compiler) : c.EachStep (World.HandsOut c.host) where
  allocate := fun stem extension hextension w => by
    obtain ⟨⟨files, directories, ids, scratch, hids, hframe⟩, -⟩ :=
      Build.allocate_frame c.host stem extension w
    have hdraws : ((Build.allocate c.host stem extension).run w).2.draws = w.draws := by
      rw [hframe]
    refine ⟨hdraws, ?_⟩
    rcases hrun : (Build.allocate c.host stem extension).run w with ⟨f | path, v⟩
    · refine ⟨[], ?_, .none ?_ ?_⟩
      · have hhands := Build.handsOut c.host stem extension w
        rw [hrun] at hhands
        rw [List.append_nil]
        -- a file that is not handed out is not listed either
        cases hhands with
        | closed => rfl
        | refused _ hdirectory =>
            have hgives := Build.givesDirectory w
            rw [hdirectory] at hgives
            cases hgives with
            | refused => rfl
      · have hstays := Build.stays_allocate c.host stem extension w
        rwa [hrun] at hstays
      · rw [hrun] at hframe
        rw [show v = _ from hframe]
        exact hids
    · exact ⟨[path], Build.scratchFiles_of_allocate hrun, .allocate hextension hrun⟩
  call := fun call hargv w => by
    obtain ⟨v, hrun, hworld⟩ := c.host.run_call_exchanged hargv w
    have hstays := c.host.stays_call call w
    rw [hrun] at hstays ⊢
    rw [hworld] at hstays ⊢
    exact ⟨rfl, [], (List.append_nil _).symm, .none hstays (Nat.le_refl _)⟩
  conclude := fun call hargv reply w => by
    obtain ⟨answer, hrun, -⟩ := (⟨call, w.files, reply⟩ : Exchange).run_conclude hargv w
    have hstays := (call.still_conclude reply).stays w
    rw [hrun] at hstays ⊢
    exact ⟨rfl, [], (List.append_nil _).symm, .none hstays (Nat.le_refl _)⟩

end Compiler

/-! ## Shares -/

namespace Compiler

variable {c : Compiler} {source : Path} {e : EntryPoint}

/-- The share of an architecture whose work has come to its end: there is one as soon as
    its three files have been handed out, and before that no call is made. -/
theorem WorksFor.share {arch : Arch} {steps : List (World × World)}
    {answer : Except Failure Path} (h : c.WorksFor source e arch steps answer) :
    (exchangesOf steps = [] ∧ ∃ f, answer = .error f) ∨
    ∃ s : Share, s.arch = arch ∧
      Performed (c.shareCalls source e s) (exchangesOf steps) (failure? answer) ∧
      s.files.Sublist (filesOf steps) ∧ ∀ object, answer = .ok object → s.object = object := by
  cases h with
  | refused hexchanges => exact .inl ⟨hexchanges, _, rfl⟩
  | @furnished u₁ v₁ u₂ v₂ u₃ v₃ bitcode assembly object steps _ h₁ h₂ h₃ htakes =>
      have hfiles : ∀ {extension : String} {path : Path} {u v : World} {later},
          (Build.allocate c.host (source.stem ++ "-" ++ arch.name) extension).run u =
            (.ok path, v) →
          filesOf ((u, v) :: later) = path :: filesOf later := by
        intro extension path u v later hrun
        rw [filesOf, List.flatMap_cons]
        dsimp only
        rw [Build.scratchFiles_of_allocate hrun, List.drop_left]
        rfl
      refine .inr ⟨⟨arch, bitcode, assembly, object⟩, rfl, ?_, ?_, fun path hpath => ?_⟩
      · rw [exchangesOf_cons (Build.recounts_allocate h₁),
          exchangesOf_cons (Build.recounts_allocate h₂),
          exchangesOf_cons (Build.recounts_allocate h₃)]
        exact (c.performs_translate source e arch bitcode assembly object _ _ htakes).1
      · rw [hfiles h₁, hfiles h₂, hfiles h₃]
        exact (List.prefix_append [bitcode, assembly, object] (filesOf steps)).sublist
      · rw [hpath] at htakes
        exact (object_of_translate htakes).symm

/-- The shares of architectures that were worked on, and what each of them has
    made. -/
theorem begun_of_portions {portions : List (Portion Arch Path)} {made : List Exchange}
    (hfollows : ∀ p ∈ portions, p.Follows (c.compileFor source e))
    (hwoven : Interleaves (portions.map fun p => exchangesOf p.steps) made) :
    ∃ shares : List Share, (shares.map Share.arch).Sublist (portions.map Portion.label) ∧
      c.Begins source e shares (made.map (·.call)) ∧
      (shares.flatMap Share.files).Sublist (portions.flatMap fun p => filesOf p.steps) := by
  induction portions generalizing made with
  | nil =>
      cases hwoven
      exact ⟨[], .slnil, ⟨[], rfl, List.forall_mem_nil _, .nil⟩, .slnil⟩
  | cons p later ih =>
      obtain ⟨hp, hlater⟩ := List.forall_mem_cons.mp hfollows
      obtain _ | ⟨hrest, hshuffled⟩ := hwoven
      obtain ⟨shares, harchs, ⟨parts, hparts, hpart, hinterleaves⟩, hfiles⟩ := ih hlater hrest
      have hcalls : Shuffled ((exchangesOf p.steps).map (·.call)) _ (made.map (·.call)) :=
        hshuffled.map _
      -- an architecture without its files has made no call
      have hidle : exchangesOf p.steps = [] → ∃ shares : List Share,
          (shares.map Share.arch).Sublist (p.label :: later.map Portion.label) ∧
          c.Begins source e shares (made.map (·.call)) ∧
          (shares.flatMap Share.files).Sublist
            (filesOf p.steps ++ later.flatMap fun p => filesOf p.steps) := by
        intro hnone
        rw [hnone] at hcalls
        rw [hcalls.eq_of_nil_left]
        exact ⟨shares, harchs.cons _, ⟨parts, hparts, hpart, hinterleaves⟩,
          hfiles.trans (List.sublist_append_right _ _)⟩
      rw [List.map_cons, List.flatMap_cons]
      rcases houtcome : p.outcome with _ | answer
      · unfold Portion.Follows at hp
        rw [houtcome] at hp
        exact hidle (by rw [show p.steps = [] from hp]; rfl)
      · unfold Portion.Follows at hp
        rw [houtcome] at hp
        rcases (worksFor hp).share with ⟨hnone, -⟩ | ⟨s, harch, hperformed, hown, -⟩
        · exact hidle hnone
        · refine ⟨s :: shares, ?_, ⟨(s, (exchangesOf p.steps).map (·.call)) :: parts, ?_, ?_,
            .cons hinterleaves hcalls⟩, ?_⟩
          · rw [List.map_cons, harch]
            exact harchs.cons_cons _
          · rw [List.map_cons, hparts]
          · exact List.forall_mem_cons.mpr ⟨hperformed.calls, hpart⟩
          · rw [List.flatMap_cons]
            exact hown.append hfiles

/-- The shares of architectures that all have their objects. -/
theorem shares_of_answers {portions : List (Portion Arch Path)} {objects : List Path}
    (hfollows : ∀ p ∈ portions, p.Follows (c.compileFor source e))
    (hobjects : portions.map Portion.outcome = objects.map fun o => some (.ok o)) :
    ∃ shares : List Share, shares.map Share.arch = portions.map Portion.label ∧
      shares.map Share.object = objects ∧
      (portions.map fun p => (exchangesOf p.steps).map (·.call))
        = shares.map (c.shareCalls source e) ∧
      (shares.flatMap Share.files).Sublist (portions.flatMap fun p => filesOf p.steps) := by
  induction portions generalizing objects with
  | nil =>
      obtain rfl := List.map_eq_nil_iff.mp hobjects.symm
      exact ⟨[], rfl, rfl, rfl, .slnil⟩
  | cons p later ih =>
      obtain ⟨object, rest, rfl, hobject, hrest⟩ := List.map_eq_cons_iff.mp hobjects.symm
      obtain ⟨hp, hlater⟩ := List.forall_mem_cons.mp hfollows
      obtain ⟨shares, harchs, hall, hcalls, hfiles⟩ := ih hlater hrest.symm
      unfold Portion.Follows at hp
      rw [← hobject] at hp
      rcases (worksFor hp).share with ⟨-, _, hfailed⟩ | ⟨s, harch, hperformed, hown, hs⟩
      · -- without its files an architecture has no object
        exact nomatch hfailed
      · have hmade := hperformed.calls_eq
        refine ⟨s :: shares, ?_, ?_, ?_, ?_⟩
        · rw [List.map_cons, List.map_cons, harch, harchs]
        · rw [List.map_cons, hs object rfl, hall]
        · rw [List.map_cons, List.map_cons, hmade, hcalls]
        · rw [List.flatMap_cons, List.flatMap_cons]
          exact hown.append hfiles

/-- What was done between two worlds is the work of these shares, as far as it
    went: it made their calls and drew no entry point, and their files were handed
    out. -/
structure Shared (c : Compiler) (source : Path) (e : EntryPoint) (w : World)
    (answer : Except Failure (List Path)) (v : World) (shares : List Share)
    (made : List Exchange) : Prop where
  exchanges : v.exchanges = w.exchanges ++ made
  archs : (shares.map Share.arch).Sublist c.archs
  begins : c.Begins source e shares (made.map (·.call))
  whole : ∀ objects, answer = .ok objects → shares.map Share.arch = c.archs ∧
    shares.map Share.object = objects ∧ c.Weaves source e shares (made.map (·.call))
  draws : v.draws = w.draws
  furnishes : w.Furnishes c.host v (shares.flatMap Share.files)

/-- **The work for all architectures** is that of their shares. -/
theorem shared_compileAll {w v : World} {answer : Except Failure (List Path)}
    (h : (c.compileAll source e).run w = (answer, v)) :
    ∃ (shares : List Share) (made : List Exchange), c.Shared source e w answer v shares made := by
  obtain ⟨portions, whole, hworked⟩ := worked_compileAll h
  obtain ⟨pools, hhired⟩ := c.hired_frame w
  have hleads := hworked.leads
  rw [hhired] at hleads
  obtain ⟨hrecounts, -⟩ :=
    hleads.recounts (hworked.every (every_compileFor c.eachStep_grows source e))
  obtain ⟨hdraws, hfurnishes⟩ :=
    hleads.furnishes (hworked.every (every_compileFor c.eachStep_handsOut source e))
  have hhandedOut : w.Furnishes c.host v (filesOf whole) :=
    hfurnishes.behind (.of_same rfl rfl rfl rfl rfl) (Nat.le_refl _)
  -- what the steps of all together have made is woven from what each portion has made
  have hwoven : Interleaves (portions.map fun p => exchangesOf p.steps) (exchangesOf whole) := by
    have hwoven := hworked.woven.flatMap fun s => s.2.exchanges.drop s.1.exchanges.length
    rwa [List.map_map] at hwoven
  have hall : (portions.flatMap fun p => filesOf p.steps).Perm (filesOf whole) := by
    have hwoven := hworked.woven.flatMap fun s => s.2.scratch.files.drop s.1.scratch.files.length
    rw [List.map_map] at hwoven
    exact hwoven.perm.symm
  rcases answer with f | objects
  · -- an architecture that got no files has no share, so there may be fewer shares
    obtain ⟨shares, harchs, hbegins, hfiles⟩ := begun_of_portions hworked.follows hwoven
    rw [hworked.labels] at harchs
    exact ⟨shares, _, hrecounts.exchanges, harchs, hbegins, nofun, hdraws,
      hhandedOut.fewer (hfiles.subperm.trans hall.subperm)⟩
  · obtain ⟨shares, harchs, hobjects, hcalls, hfiles⟩ :=
      shares_of_answers hworked.follows hworked.decided.eq_of_ok
    rw [hworked.labels] at harchs
    have hcallsWoven : c.Weaves source e shares ((exchangesOf whole).map (·.call)) := by
      refine ⟨?_, fun hturn => ?_⟩
      · have hmapped := hwoven.map (·.call)
        rw [List.map_map] at hmapped
        rw [← hcalls]
        exact hmapped
      · rw [hworked.inTurn hturn, exchangesOf, flatMap_flatten, List.map_flatten, List.map_map,
          List.map_map, List.flatMap_def, ← hcalls]
        rfl
    exact ⟨shares, _, hrecounts.exchanges, harchs ▸ List.Sublist.refl _, hcallsWoven.begins,
      fun objects' hanswer => ⟨harchs, Except.ok.inj hanswer ▸ hobjects, hcallsWoven⟩, hdraws,
      hhandedOut.fewer (hfiles.subperm.trans hall.subperm)⟩

end Compiler

end AheadOfTime
