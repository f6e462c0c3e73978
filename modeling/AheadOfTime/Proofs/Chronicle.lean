import AheadOfTime.Proofs.ProgramBody

/-! # The log of a run

    A run writes its records in three places: the driver writes where it starts and
    where it ends, every call of a tool writes a record and another one if the tool
    reports a failure, and the look into the ready-made objects writes about every
    object that is passed on without an entry point.

    `Exchange.records` and `Request.scanRecords` say what is written for one
    exchange, from the exchange alone, and `Told` in which order the records of many
    exchanges may stand: each exchange is told at once, unless architectures are
    compiled side by side, where the records of one may get between those of another.
    Behind the look into the objects a step writes the records of its exchanges and
    nothing else, which is a law in the sense of `Law`; the look itself is followed
    object by object.  `run_chronicles_calls` puts them together: the log of a run
    tells of its calls, and of how the run ends. -/

namespace AheadOfTime

variable {u v w : World}

/-! ## The look into an object -/

namespace Exchange

/-- The exchange listed the symbols of an object, without an entry point. -/
def isBare (x : Exchange) : Bool :=
  match x.reply with
  | .exited status output => status == 0 && (SymbolListing.candidates output).isEmpty
  | _ => false

end Exchange

/-- What is written about the look into an object: the records of its exchange, and
    one about the object if it is passed on without an entry point. -/
def Request.scanRecords (r : Request) (object : Path) (scan : Exchange) : Log :=
  scan.records ++
    if scan.isBare ∧ ¬ (r.kind = .executable ∧ r.inputs.head? = some object) then
      [Request.passThroughRecord object] else []

/-- **A command** writes the records of its exchange. -/
theorem Host.recounts_hostRun (host : Host) {c : Call} (h : c.argv ≠ []) (w : World) :
    w.Recounts ((host.run c).run w).2 [host.exchanged c w] (host.exchanged c w).records := by
  have hinvoke : ∀ {program arguments}, c.argv = program :: arguments →
      (host.exchanged c w).invokeRecord = c.startRecord program := by
    intro program arguments hargv
    simp [Exchange.invokeRecord, Exchange.toolName?, exchanged, hargv, Call.startRecord,
      Call.toolName]
  refine ⟨host.exchanges_hostRun h w, ?_⟩
  have hcalled := host.called c w
  rw [Exchange.records, Exchange.badStatus?]
  generalize (host.run c).run w = outcome at hcalled ⊢
  -- only a rejected reply is recorded
  cases hcalled with
  | unnamed hnone => exact absurd hnone h
  | missing hargv hreply =>
      rw [hinvoke hargv, hreply]
      rfl
  | failed hargv hreply =>
      rw [hinvoke hargv, hreply]
      rfl
  | @rejected program _ status _ hargv hreply hchecked hne =>
      have hfailure : (host.exchanged c w).failureRecord status
          = c.failureRecord program status := by
        simp [Exchange.failureRecord, Exchange.toolName?, exchanged, hargv, Call.failureRecord,
          Call.toolName]
      rw [hinvoke hargv, hreply]
      dsimp only
      rw [if_pos ⟨hchecked, hne⟩, Option.toList_some, List.map_singleton, hfailure]
      exact List.append_assoc _ _ _
  | answered hargv hreply hzero =>
      rw [hinvoke hargv, hreply]
      dsimp only
      rw [if_neg fun hrejected => hrejected.2 (hzero hrejected.1)]
      rfl

/-! ## The records of many calls -/

/-- The records tell of these calls and of nothing else.  A call is told at once, unless
    architectures of a source are compiled side by side: each of them has its own calls,
    which are told one after the other, but the others may get between the records of a
    call.  Even so the calls are recorded in the order in which they were made. -/
inductive Told (pooled : Bool) (archs : List Arch) : List Exchange → Log → Prop where
  | nil : Told pooled archs [] []
  | alone {made : List Exchange} {written : Log} (x : Exchange) : Told pooled archs made written →
      Told pooled archs (x :: made) (x.records ++ written)
  | beside {source : Path} {parts : List Part} {block made : List Exchange}
      {records written : Log} : pooled = true → parts.map Part.arch = archs →
      (∀ p ∈ parts, p.made.map (·.call.label) <+: archPlan source p.arch) →
      Interleaves (parts.map Part.made) block →
      Interleaves (parts.map fun p => p.made.flatMap Exchange.records) records →
      records.filter Record.isEchoed = block.map Exchange.invokeRecord →
      Told pooled archs made written → Told pooled archs (block ++ made) (records ++ written)

/-- Of the records of an exchange only the first one is that of a call. -/
theorem Exchange.invokes_records (x : Exchange) :
    x.records.filter Record.isEchoed = [x.invokeRecord] := by
  have hrest : (x.badStatus?.toList.map x.failureRecord).filter Record.isEchoed = [] := by
    refine List.filter_eq_nil_iff.mpr fun record hrecord => ?_
    obtain ⟨status, -, rfl⟩ := List.mem_map.mp hrecord
    exact Bool.false_ne_true
  rw [records, List.filter_cons_of_pos (by rfl), hrest]

namespace Told

variable {pooled : Bool} {archs : List Arch} {made more : List Exchange} {written also : Log}

theorem append (h : Told pooled archs made written) (h' : Told pooled archs more also) :
    Told pooled archs (made ++ more) (written ++ also) := by
  induction h with
  | nil => exact h'
  | alone x _ ih =>
      rw [List.cons_append, List.append_assoc]
      exact .alone x ih
  | beside hpooled harchs hlabels hwoven hrecorded hinvoked _ ih =>
      rw [List.append_assoc, List.append_assoc]
      exact .beside hpooled harchs hlabels hwoven hrecorded hinvoked ih

/-- Calls that are told one after the other. -/
theorem ofRecords (pooled : Bool) (archs : List Arch) (made : List Exchange) :
    Told pooled archs made (made.flatMap Exchange.records) := by
  induction made with
  | nil => exact .nil
  | cons x later ih => exact .alone x ih

/-- If nothing is compiled side by side, the calls are told one after the other. -/
theorem inTurn (h : Told false archs made written) : written = made.flatMap Exchange.records := by
  induction h with
  | nil => rfl
  | alone x _ ih => rw [ih, List.flatMap_cons]
  | beside hpooled => exact nomatch hpooled

/-- **Every call is recorded** once, in the order in which the calls were made. -/
theorem invokes (h : Told pooled archs made written) :
    written.filter Record.isEchoed = made.map Exchange.invokeRecord := by
  induction h with
  | nil => rfl
  | alone x _ ih => rw [List.filter_append, x.invokes_records, ih, List.map_cons]; rfl
  | beside _ _ _ _ _ hinvoked _ ih => rw [List.filter_append, hinvoked, ih, List.map_append]

/-- Every record is one of a call that was made. -/
theorem mem_records (h : Told pooled archs made written) {record : Record}
    (hrecord : record ∈ written) : ∃ x ∈ made, record ∈ x.records := by
  induction h with
  | nil => exact nomatch hrecord
  | alone x _ ih =>
      rcases List.mem_append.mp hrecord with hx | hlater
      · exact ⟨x, List.mem_cons_self, hx⟩
      · obtain ⟨y, hy, hrecord⟩ := ih hlater
        exact ⟨y, List.mem_cons_of_mem _ hy, hrecord⟩
  | beside _ _ _ hwoven hrecorded _ _ ih =>
      rcases List.mem_append.mp hrecord with hblock | hlater
      · obtain ⟨own, hown, hrecord⟩ := hrecorded.mem_iff.mp hblock
        obtain ⟨p, hp, rfl⟩ := List.mem_map.mp hown
        obtain ⟨x, hx, hrecord⟩ := List.mem_flatMap.mp hrecord
        exact ⟨x, List.mem_append_left _ (hwoven.mem_iff.mpr ⟨_, List.mem_map_of_mem hp, hx⟩),
          hrecord⟩
      · obtain ⟨y, hy, hrecord⟩ := ih hlater
        exact ⟨y, List.mem_append_right _ hy, hrecord⟩

end Told

/-! ## Behind the look into the ready-made objects -/

section

variable {pooled : Bool} {archs : List Arch}

/-- What was written tells of the exchanges that came about, and no symbols were
    listed. -/
def chronicled (pooled : Bool) (archs : List Arch) : Law := fun w _ v =>
  ∃ made written, w.Recounts v made written ∧ Told pooled archs made written ∧
    ∀ x ∈ made, x.call.stage ≠ .symbols

/-- A step without exchanges and without records. -/
theorem chronicled_of_same {o : Option Failure} (hexchanges : v.exchanges = w.exchanges)
    (hlog : v.log = w.log) : chronicled pooled archs w o v := by
  refine ⟨[], [], ⟨?_, ?_⟩, .nil, List.forall_mem_nil _⟩
  · rw [hexchanges, List.append_nil]
  · rw [hlog]
    exact (List.append_nil _).symm

theorem chronicled_hostRun (host : Host) {c : Call} (hargv : c.argv ≠ [])
    (hstage : c.stage ≠ .symbols) : (host.run c).Meets (chronicled pooled archs) := by
  intro w
  refine ⟨[host.exchanged c w], _, host.recounts_hostRun hargv w, ?_,
    List.forall_mem_singleton.mpr hstage⟩
  have htold := Told.ofRecords pooled archs [host.exchanged c w]
  rwa [List.flatMap_singleton] at htold

/-- The calls of a build, but for the look into the ready-made objects, bear the
    law. -/
theorem bears_chronicled (pooled : Bool) (archs : List Arch) (host : Host) :
    (chronicled pooled archs).Bears host fun c => c.argv ≠ [] ∧ c.stage ≠ .symbols where
  idle := by
    intro w
    exact chronicled_of_same rfl rfl
  next := by
    rintro u v w o ⟨made, written, hfirst, htold, hstages⟩ ⟨more, also, hlast, htold', hstages'⟩
    exact ⟨made ++ more, written ++ also, hfirst.trans hlast, htold.append htold',
      List.forall_mem_append.mpr ⟨hstages, hstages'⟩⟩
  disk := by
    rintro u v o files ⟨made, written, h, hrest⟩
    exact ⟨made, written, ⟨h.exchanges, h.log⟩, hrest⟩
  overrule := by
    intro u v e f h
    exact h
  plain := by
    intro w e _
    exact chronicled_of_same rfl rfl
  warn := by
    intro n w
    exact chronicled_of_same rfl rfl
  allocate := by
    intro stem extension w
    obtain ⟨⟨files, directories, ids, scratch, -, hframe⟩, -⟩ :=
      Build.allocate_frame host stem extension w
    rw [hframe]
    exact chronicled_of_same rfl rfl
  call := by
    rintro c ⟨hargv, hstage⟩
    exact chronicled_hostRun host hargv hstage

end

/-- **The architectures of a source** are told of together. -/
theorem Compiler.chronicled_compileAll (c : Compiler) (source : Path) (e : EntryPoint) :
    (c.compileAll source e).Meets (chronicled c.isPooled c.archs) := by
  intro w
  rcases hrun : (c.compileAll source e).run w with ⟨answer, v⟩
  obtain ⟨parts, made, written, h⟩ := parted_compileAll hrun
  refine ⟨made, written, h.recounts, ?_, fun x hx => ?_⟩
  · cases hpooled : c.isPooled with
    | true =>
        have htold := Told.beside rfl h.archs (fun p hp => ((h.does p hp).part).1) h.woven
          h.recorded h.invoked .nil
        rwa [List.append_nil, List.append_nil] at htold
    | false =>
        rw [(h.inTurn hpooled).2]
        exact .ofRecords _ _ made
  · obtain ⟨own, hown, hx⟩ := h.woven.mem_iff.mp hx
    obtain ⟨p, hp, rfl⟩ := List.mem_map.mp hown
    have hcall := (h.does p hp).mayCall x hx
    generalize x.call = call at hcall
    cases hcall <;> exact nofun

theorem Compiler.chronicled_compile (c : Compiler) (source : Path) (output : Option Path) :
    (c.compile source output).Meets (chronicled c.isPooled c.archs) := by
  refine ((bears_chronicled _ _ c.host).mono ?_).compile ?_ c.chronicled_compileAll source output
  · intro d hd
    cases hd <;> exact ⟨List.cons_ne_nil _ _, nofun⟩
  · intro w draws
    exact chronicled_of_same rfl rfl

namespace Builder

variable {b : Builder} {r : Request} {layout : Toolchain} {tools : ToolPaths}

/-- The calls that may follow the look into the ready-made objects. -/
theorem bears_chronicled_follow (b : Builder) (r : Request) (layout : Toolchain)
    (tools : ToolPaths) :
    (chronicled r.isPooled r.archs).Bears b.host (b.MayFollow r layout tools) := by
  refine (bears_chronicled _ _ b.host).mono ?_
  rintro c ⟨hlink, hstage⟩
  refine ⟨?_, hstage⟩
  cases hlink <;> exact List.cons_ne_nil _ _

/-- What is left of the work when the ready-made objects have been looked into. -/
theorem chronicled_rest (b : Builder) (r : Request) (layout : Toolchain) (tools : ToolPaths)
    (prebuilt : Prebuilt) : Build.Meets (do
      let exceptions ← b.exceptionFlags r layout tools
      let bridging ← bridgingFlags r layout
      b.produce r layout (b.compilerFor r layout tools exceptions bridging)
        (b.linkerFor r layout tools) prebuilt) (chronicled r.isPooled r.archs) := by
  have hlaw := b.bears_chronicled_follow r layout tools
  refine hlaw.bind hlaw.exceptionFlags fun exceptions _ =>
    hlaw.bind (hlaw.bridgingFlags r layout) fun bridging _ => ?_
  refine hlaw.produce rfl
    (Compiler.chronicled_compile (b.compilerFor r layout tools exceptions bridging)) ?_
  intro _ inputs _ p _ w
  exact chronicled_of_same rfl rfl

end Builder

/-! ## The look into the ready-made objects -/

/-- A symbol listing answers no entry point iff it has no candidate for one. -/
theorem SymbolListing.entryPoint?_eq_none_iff (listing : String) (source : Option Path)
    (w : World) : ((entryPoint? listing source).run w).1 = .ok none ↔
      candidates listing = [] := by
  constructor
  · exact candidates_of_none
  · intro h
    rw [run_entryPoint?, h]

/-- Reading a listing writes nothing. -/
theorem SymbolListing.recounts_entryPoint? (listing : String) (source : Option Path) (w : World) :
    w.Recounts ((entryPoint? listing source).run w).2 [] [] := by
  rw [run_entryPoint?]
  split
  · exact .refl w
  · exact .refl w
  · exact ⟨(List.append_nil _).symm, (List.append_nil _).symm⟩

/-- **The look into one object** writes the records of its exchange, and answers no
    entry point iff the listing has none. -/
theorem Host.recounts_scanEntryPoint (host : Host) (nm object : Path) (w : World) :
    w.Recounts ((host.scanEntryPoint nm object).run w).2
        [host.exchanged (symbolsCall nm object) w]
        (host.exchanged (symbolsCall nm object) w).records ∧
      (((host.scanEntryPoint nm object).run w).1 = .ok none ↔
        (host.exchanged (symbolsCall nm object) w).isBare = true) := by
  have hcall := host.recounts_hostRun (c := symbolsCall nm object) (List.cons_ne_nil _ _) w
  show w.Recounts ((host.run (symbolsCall nm object) >>= fun result =>
      SymbolListing.entryPoint? result.output (some object)).run w).2 _ _ ∧
    (((host.run (symbolsCall nm object) >>= fun result =>
      SymbolListing.entryPoint? result.output (some object)).run w).1 = _ ↔ _)
  rcases hrun : (host.run (symbolsCall nm object)).run w with ⟨e | result, v⟩
  · -- the call has come to nothing, so there is no listing
    rw [hrun] at hcall
    rw [run_bind_error hrun]
    obtain ⟨-, hnone, -⟩ := run_hostRun_eq_error (List.cons_ne_nil _ _) hrun
    refine ⟨hcall, iff_of_false nofun ?_⟩
    rw [Exchange.isBare]
    rcases hreply : (host.exchanged (symbolsCall nm object) w).reply with ⟨status, output⟩ | _ | _
    · have hstatus : status ≠ 0 := by
        rintro rfl
        exact hnone output hreply
      simp [hstatus]
    · exact nofun
    · exact nofun
  · rw [hrun] at hcall
    rw [run_bind_ok hrun]
    obtain ⟨program, status, output, -, hreply, hzero, rfl⟩ := run_hostRun_eq_ok hrun
    rw [hzero rfl] at hreply
    have hread := hcall.trans (SymbolListing.recounts_entryPoint? output (some object) v)
    rw [List.append_nil, List.append_nil] at hread
    refine ⟨hread, ?_⟩
    rw [SymbolListing.entryPoint?_eq_none_iff, Exchange.isBare, hreply]
    simp

/-- Between two worlds these objects were looked into, each one with its exchange. -/
structure Request.LookedInto (r : Request) (nm : Path) (scans : List (Path × Exchange))
    (w v : World) : Prop extends
    w.Recounts v (scans.map Prod.snd) (scans.flatMap fun s => r.scanRecords s.1 s.2) where
  calls : ∀ s ∈ scans, s.2.call = Host.symbolsCall nm s.1

namespace Request.LookedInto

variable {r : Request} {nm object : Path} {scans : List (Path × Exchange)} {x : Exchange}

theorem nil (r : Request) (nm : Path) (w : World) : r.LookedInto nm [] w w :=
  ⟨.refl w, List.forall_mem_nil _⟩

theorem cons (hcall : x.call = Host.symbolsCall nm object)
    (h : u.Recounts v [x] (r.scanRecords object x)) (hlater : r.LookedInto nm scans v w) :
    r.LookedInto nm ((object, x) :: scans) u w where
  toRecounts := h.trans hlater.toRecounts
  calls := List.forall_mem_cons.mpr ⟨hcall, hlater.calls⟩

end Request.LookedInto

namespace Builder

variable {b : Builder} {r : Request} {layout : Toolchain} {tools : ToolPaths}

/-- An object that is passed on is written about; one that is refused is not. -/
theorem recounts_settleObject (r : Request) (object : Path) (e : Option EntryPoint) (w : World) :
    w.Recounts ((settleObject r object e).run w).2 []
      (if e = none ∧ ¬ (r.kind = .executable ∧ r.inputs.head? = some object) then
        [Request.passThroughRecord object] else []) := by
  cases e with
  | some e => exact .refl w
  | none =>
      rw [settleObject_none]
      by_cases hbody : r.kind = .executable ∧ r.inputs.head? = some object
      · rw [if_pos hbody, if_neg (fun h => h.2 hbody)]
        exact .refl w
      · rw [if_neg hbody, if_pos ⟨rfl, hbody⟩]
        exact ⟨(List.append_nil _).symm, rfl⟩

section

variable {input : Path} {x : Exchange} {w v : World}

/-- A look that came to nothing writes the records of its exchange. -/
theorem recounts_scan_error (r : Request) {nm : Path} {e : Failure}
    (hx : b.host.exchanged (Host.symbolsCall nm input) w = x)
    (hscan : (b.host.scanEntryPoint nm input).run w = (.error e, v)) :
    w.Recounts v [x] (r.scanRecords input x) := by
  obtain ⟨hlook, hbare⟩ := b.host.recounts_scanEntryPoint nm input w
  rw [hscan, hx] at hlook hbare
  rw [Request.scanRecords, if_neg (fun h => nomatch hbare.mpr h.1), List.append_nil]
  exact hlook

/-- A look with an answer writes the records of its exchange, and then the one about
    an object that is passed on. -/
theorem recounts_scan_ok (r : Request) {nm : Path} {e : Option EntryPoint}
    (hx : b.host.exchanged (Host.symbolsCall nm input) w = x)
    (hscan : (b.host.scanEntryPoint nm input).run w = (.ok e, v)) :
    w.Recounts ((settleObject r input e).run v).2 [x] (r.scanRecords input x) := by
  obtain ⟨hlook, hbare⟩ := b.host.recounts_scanEntryPoint nm input w
  rw [hscan, hx] at hlook hbare
  have hnone : e = none ↔ x.isBare = true := by
    rw [← hbare]
    exact ⟨congrArg Except.ok, Except.ok.inj⟩
  have hsettle := hlook.trans (recounts_settleObject r input e v)
  simp only [hnone] at hsettle
  exact hsettle

end

/-- **The look into the ready-made objects** takes those that are not found yet, one
    after the other: all of them if it answers, and else as far as it comes. -/
theorem lookedInto_scanPrebuilt (b : Builder) (r : Request) (layout : Toolchain)
    (tools : ToolPaths) (inputs : List Path) (found : Prebuilt) (w : World) :
    ∃ scans, r.LookedInto tools.nm scans w ((b.scanPrebuilt r layout tools inputs found).run w).2 ∧
      scans.map Prod.fst <+: unscanned layout found inputs ∧
      ((∃ prebuilt, ((b.scanPrebuilt r layout tools inputs found).run w).1 = .ok prebuilt) →
        scans.map Prod.fst = unscanned layout found inputs) := by
  induction inputs generalizing found w with
  | nil => exact ⟨[], .nil r tools.nm w, List.nil_prefix, fun _ => rfl⟩
  | cons input later ih =>
      rw [scanPrebuilt_cons]
      by_cases hskip : input.extension ≠ layout.objectExtension ∨ found.any (·.1 == input)
      · rw [if_pos hskip, unscanned_cons_of_skip later hskip]
        exact ih found w
      · rw [if_neg hskip]
        rw [not_or, Decidable.not_not, Bool.not_eq_true] at hskip
        obtain ⟨x, hx⟩ : ∃ x, b.host.exchanged (Host.symbolsCall tools.nm input) w = x := ⟨_, rfl⟩
        have hcall : x.call = Host.symbolsCall tools.nm input := by rw [← hx]; rfl
        rcases hscan : (b.host.scanEntryPoint tools.nm input).run w with ⟨failure | e, u⟩
        · -- nothing of the rest is reached
          rw [run_bind_error hscan, unscanned_cons_of_new later none hskip.1 hskip.2]
          exact ⟨[(input, x)], .cons hcall (recounts_scan_error r hx hscan) (.nil r tools.nm _),
            List.prefix_append [input] _, nofun⟩
        · have hsettle := recounts_scan_ok r hx hscan
          rw [run_bind_ok hscan, unscanned_cons_of_new later e hskip.1 hskip.2]
          rcases hrun : (settleObject r input e).run u with ⟨failure | _, u'⟩
          · -- the object has been looked into, but it ends the build
            rw [hrun] at hsettle
            rw [run_bind_error hrun]
            exact ⟨[(input, x)], .cons hcall hsettle (.nil r tools.nm _),
              List.prefix_append [input] _, nofun⟩
          · rw [hrun] at hsettle
            rw [run_bind_ok hrun]
            obtain ⟨scans, hscans, hpart, hwhole⟩ := ih (found ++ [(input, e)]) u'
            refine ⟨(input, x) :: scans, .cons hcall hsettle hscans, ?_, ?_⟩
            · exact (List.prefix_append_right_inj [input]).mpr hpart
            · intro hok
              exact congrArg (input :: ·) (hwhole hok)

end Builder

/-! ## Whole runs -/

/-- The ready-made objects that a request links, each one once. -/
def Request.readyObjects (r : Request) (t : Toolchain) : List Path :=
  if r.kind.isPerInput then [] else distinct (r.inputs.filter (·.extension = t.objectExtension))

namespace Builder

variable {b : Builder} {r : Request} {tools : ToolPaths}

theorem lookedInto_readyMade (b : Builder) (r : Request) (tools : ToolPaths) (w : World) :
    ∃ scans, r.LookedInto tools.nm scans w
        ((b.readyMade r (r.layout b.toolchain) tools).run w).2 ∧
      scans.map Prod.fst <+: r.readyObjects b.toolchain ∧
      ((∃ prebuilt, ((b.readyMade r (r.layout b.toolchain) tools).run w).1 = .ok prebuilt) →
        scans.map Prod.fst = r.readyObjects b.toolchain) := by
  rw [readyMade, Request.readyObjects]
  by_cases hdirect : r.kind.isPerInput = true
  · rw [if_pos hdirect, if_pos hdirect]
    exact ⟨[], .nil r tools.nm w, List.nil_prefix, fun _ => rfl⟩
  · rw [if_neg hdirect, if_neg hdirect, ← r.objectExtension_layout b.toolchain,
      ← unscanned_nil_found]
    exact b.lookedInto_scanPrebuilt r _ tools r.inputs [] w

/-- The calls of the work on a request, and what was written about them: first the
    look into the ready-made objects, then all the others. -/
structure Chronicle (b : Builder) (r : Request) (tools : ToolPaths)
    (scans : List (Path × Exchange)) (others : List Exchange) : Prop where
  /-- Each object has one call, which lists its symbols. -/
  calls : ∀ s ∈ scans, s.2.call = Host.symbolsCall tools.nm s.1
  /-- No object is looked into twice, nor one that is not linked. -/
  part : scans.map Prod.fst <+: r.readyObjects b.toolchain
  /-- No object is left out, unless the work ended with the last one. -/
  whole : others ≠ [] → scans.map Prod.fst = r.readyObjects b.toolchain
  /-- No other call lists symbols. -/
  stages : ∀ x ∈ others, x.call.stage ≠ .symbols

/-- The records of the looks into the ready-made objects, in their order. -/
def lookRecords (r : Request) (scans : List (Path × Exchange)) : Log :=
  scans.flatMap fun s => r.scanRecords s.1 s.2

/-- **The work on a request** writes the records of its calls. -/
theorem chronicle_buildArtifacts (b : Builder) (r : Request) (tools : ToolPaths) (w : World) :
    ∃ scans others written, b.Chronicle r tools scans others ∧
      Told r.isPooled r.archs others written ∧
      w.Recounts ((b.buildArtifacts r (r.layout b.toolchain) tools).run w).2
        (scans.map Prod.snd ++ others) (lookRecords r scans ++ written) ∧
      ((∃ artifacts, ((b.buildArtifacts r (r.layout b.toolchain) tools).run w).1 = .ok artifacts) →
        scans.map Prod.fst = r.readyObjects b.toolchain) := by
  obtain ⟨scans, hscans, hpart, hwhole⟩ := b.lookedInto_readyMade r tools w
  rw [buildArtifacts_eq]
  rcases hready : (b.readyMade r (r.layout b.toolchain) tools).run w with ⟨e | prebuilt, u⟩
  · rw [hready] at hscans
    rw [run_bind_error hready]
    refine ⟨scans, [], [], ⟨hscans.calls, hpart, fun h => absurd rfl h, List.forall_mem_nil _⟩,
      .nil, ?_, nofun⟩
    rw [List.append_nil, List.append_nil]
    exact hscans.toRecounts
  · rw [hready] at hscans hwhole
    rw [run_bind_ok hready]
    obtain ⟨others, written, hothers, htold, hstages⟩ :=
      b.chronicled_rest r (r.layout b.toolchain) tools prebuilt u
    exact ⟨scans, others, written,
      ⟨hscans.calls, hpart, fun _ => hwhole ⟨prebuilt, rfl⟩, hstages⟩, htold,
      hscans.toRecounts.trans hothers, fun _ => hwhole ⟨prebuilt, rfl⟩⟩

/-- The records a run ends with, by what came of the work and of the run: one that
    lists the artifacts if the run answers, one about the problem if the work ended
    with one, and none if a fault put an end to it. -/
def endRecords (work : Except Failure (List Path)) (outcome : Except Failure BuildResult) : Log :=
  match outcome, work with
  | .ok result, _ => [Request.completeRecord result.artifacts]
  | .error _, .error (.problem p) => [Request.failedRecord p.report]
  | .error _, _ => []

/-- A run that does not answer has noted the problem of the work. -/
theorem log_noting (answer : Except Failure (List Path)) (e : Failure) (v : World) :
    (v.noting answer).log = v.log ++ endRecords answer (.error e) := by
  rcases answer with (p | f) | artifacts
  · rfl
  · exact (List.append_nil _).symm
  · exact (List.append_nil _).symm

end Builder

/-- **The log of a run is the story of its calls.**  Once a request has passed the
    checks and the tools are found, the run writes where it starts, then for every
    call in its turn one record and the failure of the tool if there is one, and behind
    the call that looked into an object that this object is passed on without an entry
    point; and at last the artifacts if it answers, or the problem that ended the work.
    A failure stands directly behind its call, but where architectures are compiled side
    by side, records of the others may stand between. -/
theorem run_chronicles_calls (b : Builder) (r : Request) {w : World} {tools : ToolPaths}
    (hcheck : r.check b.toolchain w.files = .ok ())
    (hfind : b.locator.find b.toolchain w.files = .ok tools) :
    ∃ scans others written, b.Chronicle r tools scans others ∧
      Told r.isPooled r.archs others written ∧
      ((b.run r).run w).2.exchanges = w.exchanges ++ (scans.map Prod.snd ++ others) ∧
      ((b.run r).run w).2.log
        = w.log ++ [r.startRecord] ++ (Builder.lookRecords r scans ++ written) ++
        Builder.endRecords
          ((b.buildArtifacts r (r.layout b.toolchain) tools).run (b.begun r w)).1
          ((b.run r).run w).1 ∧
      ((∃ result, ((b.run r).run w).1 = .ok result) →
        scans.map Prod.fst = r.readyObjects b.toolchain) := by
  obtain ⟨scans, others, written, hchronicle, htold, hwork, hwhole⟩ :=
    b.chronicle_buildArtifacts r tools (b.begun r w)
  refine ⟨scans, others, written, hchronicle, htold, ?_⟩
  have hran := b.ran r w
  -- a run that has got to its work tells the story of the work, and then what it notes
  generalize (b.run r).run w = outcome at hran ⊢
  cases hran with
  | refused h =>
      rw [hcheck] at h
      cases h
  | unequipped _ h =>
      rw [hfind] at h
      cases h
  | @failed _ e v files h =>
      cases hfind.symm.trans h.find
      rw [h.work] at hwork hwhole ⊢
      refine ⟨(World.exchanges_noting _ v).trans hwork.exchanges, ?_, nofun⟩
      exact (Builder.log_noting (.error e) e v).trans (congrArg (· ++ _) hwork.log)
  | @stuck _ answer v f files h =>
      cases hfind.symm.trans h.find
      rw [h.work] at hwork hwhole ⊢
      refine ⟨(World.exchanges_noting _ v).trans hwork.exchanges, ?_, nofun⟩
      exact (Builder.log_noting answer (.fault f) v).trans (congrArg (· ++ _) hwork.log)
  | built files h =>
      cases hfind.symm.trans h.find
      rw [h.work] at hwork hwhole ⊢
      exact ⟨hwork.exchanges, congrArg (· ++ _) hwork.log, fun _ => hwhole ⟨_, rfl⟩⟩

/-- The object is looked into once, is passed on, and twelve other calls follow. -/
theorem run_chronicles_calls_mixed :
    mixedRequest.check idleBuilder.toolchain mixedWorld.files = .ok () ∧
      ∃ tools scans others,
        idleBuilder.locator.find idleBuilder.toolchain mixedWorld.files = .ok tools ∧
        idleBuilder.Chronicle mixedRequest tools scans others ∧
        scans.map Prod.fst = [.ofString "b.o"] ∧ others.length = 12 ∧
        ((idleBuilder.run mixedRequest).run mixedWorld).2.log = [mixedRequest.startRecord] ++
          (Builder.lookRecords mixedRequest scans ++ others.flatMap Exchange.records) ++
          [Request.completeRecord [.ofString "out.dylib"]] := by
  have hcheck : mixedRequest.check idleBuilder.toolchain mixedWorld.files = .ok () :=
    eq_ok_of_toOption (by decide +kernel)
  obtain ⟨scans, others, written, hchronicle, htold, hexchanges, hlog, hwhole⟩ :=
    run_chronicles_calls idleBuilder mixedRequest hcheck rfl
  have hanswer : ((idleBuilder.run mixedRequest).run mixedWorld).1.toOption.map (·.artifacts)
      = some [.ofString "out.dylib"] := by
    decide +kernel
  have hcalls : ((idleBuilder.run mixedRequest).run mixedWorld).2.exchanges.length = 13 := by
    decide +kernel
  obtain ⟨result, hresult, hartifacts⟩ := Option.map_eq_some_iff.mp hanswer
  have hscans := (hwhole ⟨result, eq_ok_of_toOption hresult⟩).trans
    (show mixedRequest.readyObjects idleBuilder.toolchain = [.ofString "b.o"] by decide)
  refine ⟨hcheck, _, scans, others, rfl, hchronicle, hscans, ?_, ?_⟩
  · have hone := congrArg List.length hscans
    rw [hexchanges] at hcalls
    simp only [List.length_append, List.length_map, List.length_cons, List.length_nil]
      at hcalls hone
    have hnone : mixedWorld.exchanges.length = 0 := rfl
    omega
  · rw [hlog, eq_ok_of_toOption hresult, Builder.endRecords, hartifacts, Told.inTurn htold]
    rfl

/-- Side by side, a failure of a tool stands directly behind the record of a call for
    another architecture. -/
theorem run_tells_crosswise : Request.ofFields pairFields = .ok pairRequest ∧
    ∃ pair ∈ ((crossingBuilder.run pairRequest).run mixedWorld).2.log.zip
        ((crossingBuilder.run pairRequest).run mixedWorld).2.log.tail,
      pair.2.operation = "tool_failure" ∧ pair.1.operation = "invoke" ∧
      pair.2.arch = some "i386" ∧ pair.1.arch = some "x86_64" :=
  ⟨ofFields_pairFields, by decide +kernel⟩

end AheadOfTime
