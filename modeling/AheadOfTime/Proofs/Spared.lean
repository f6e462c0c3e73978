import AheadOfTime.Proofs.ProgramBody
import AheadOfTime.Proofs.Shelter

/-! # Files that a build spares

    Where there are no links, a path can be resolved without a look at the tree:
    names go down and double dots go up (`FileTree.resolve_of_locate`).  So it can be
    said in terms of the tree before the run which files a run may change:
    `run_spares` says that these are the outputs whose merge or link succeeded, and
    nothing else that was there.

    An output is also touched when it has been linked and could not be stripped,
    because it is removed then; but by then its link call has been made. -/

namespace AheadOfTime

open FileTree (Same Enriched)

/-! ## Trees without links -/

namespace FileTree

variable {t t' : FileTree} {aim : Aim} {p : Path} {l : Location}

/-- There is no symbolic link. -/
def LinkFree (t : FileTree) : Prop := ∀ l e, t.entryAt? l = some e → e.isLink = false

theorem linkFree_of_entries (h : ∀ entry ∈ t.entries, entry.2.isLink = false) : t.LinkFree := by
  intro l e he
  rcases mem_entries he with ⟨-, rfl⟩ | hin
  · rfl
  · exact h _ hin

/-- Where a name leads from a directory, if no links are followed. -/
def goTo (here : Location) (name : String) : Location :=
  if name = "" ∨ name = "." then here
  else if name = ".." then here.dropLast
  else here ++ [name]

/-- The location that a path spells. -/
def resolve (t : FileTree) (p : Path) : Location := p.parts.foldl goTo (t.start p)

theorem goTo_of_proper {name : String} {rest : List String} (h : Proper aim name rest)
    (here : Location) : goTo here name = here ++ [name] := by
  unfold goTo
  rw [if_neg h.notDot, if_neg h.notUp]

/-- A walk that meets no links goes where its names lead. -/
theorem Walks.eq_foldl {links : Nat} {here : Location} {names : List String} (ht : t.LinkFree)
    (h : Walks t aim links here names l) : names.foldl goTo here = l := by
  induction h with
  | here => rfl
  | stay hdot _ ih =>
      rw [List.foldl_cons, goTo, if_pos hdot]
      exact ih
  | up _ ih => exact ih
  | down hproper _ _ ih =>
      rw [List.foldl_cons, goTo_of_proper hproper]
      exact ih
  | stop hproper _ => exact goTo_of_proper hproper _
  | follow _ hentry _ _ _ => exact nomatch ht _ _ hentry

/-- **Without links**, a path leads where it resolves to, or nowhere. -/
theorem resolve_of_locate (ht : t.LinkFree) (h : t.locate aim p = .ok l) : t.resolve p = l :=
  (locate_eq_ok_iff.mp h).2.eq_foldl ht

theorem Enriched.resolve_of_locate (h : Enriched t t') (ht : t.LinkFree)
    (hlocate : t'.locate aim p = .ok l) : t.resolve p = l := by
  have hresolve : t'.resolve p = t.resolve p := by
    unfold resolve start
    rw [h.workingDirectory]
  rw [← hresolve]
  exact FileTree.resolve_of_locate (h.noLinks ht) hlocate

end FileTree

namespace Project

variable {α : Type} {j : Project} {t : FileTree} {u v w : World} {e : Failure}

/-- The location is that of an output, and a call of these has put something
    there. -/
def Touched (j : Project) (t : FileTree) (made : List Exchange) (l : Location) : Prop :=
  ∃ p, j.request.Output j.layout p ∧ t.resolve p = l ∧
    ∃ x ∈ made, x.Makes j.request.kind.finishing p

theorem Touched.mono {made made' : List Exchange} {l : Location} (h : j.Touched t made l)
    (hsub : made ⊆ made') : j.Touched t made' l := by
  obtain ⟨p, houtput, hresolve, x, hx, hmakes⟩ := h
  exact ⟨p, houtput, hresolve, x, hsub hx, hmakes⟩

/-- A part of the work spares all regular files but those that are touched and those
    in the scratch directory. -/
structure Spares (j : Project) (t : FileTree) (u v : World) : Prop where
  rests : Rests t v
  keeps : Keeps u v
  frame : ∃ made, v.exchanges = u.exchanges ++ made ∧
    ∀ l, v.files.fileAt? l = u.files.fileAt? l ∨ j.Touched t made l ∨ InScratch t v l

theorem Spares.trans (h : j.Spares t u v) (h' : j.Spares t v w) : j.Spares t u w := by
  obtain ⟨made, hmade, hframe⟩ := h.frame
  obtain ⟨more, hmore, hframe'⟩ := h'.frame
  refine ⟨h'.rests, h.keeps.trans h'.keeps, made ++ more, ?_, fun l => ?_⟩
  · rw [hmore, hmade, List.append_assoc]
  · rcases hframe' l with heq | htouched | hinside
    · rw [heq]
      rcases hframe l with heq | htouched | hinside
      · exact .inl heq
      · exact .inr (.inl (htouched.mono (List.subset_append_left _ _)))
      · exact .inr (.inr (hinside.mono h'.keeps))
    · exact .inr (.inl (htouched.mono (List.subset_append_right _ _)))
    · exact .inr (.inr hinside)

/-! ## The end of the work -/

/-- Nothing was touched. -/
theorem Sparing.spares (h : Sparing t (fun _ => False) u v) {made : List Exchange}
    (hmade : v.exchanges = u.exchanges ++ made) : j.Spares t u v :=
  ⟨h.sheltered.rests, h.keeps, made, hmade, fun l => (h.frame l).imp_right (Or.imp_left False.elim)⟩

/-- What is left of an output that could not be stripped. -/
theorem strip_error (ho : j.Orderly) {k : Linker} (hk : k.host = j.host) {p : Path}
    {flags : List String} (h : (k.strip p flags).run u = (.error e, v)) :
    ∃ files, Same u.files files ∧ v.scratch = u.scratch ∧ (∃ x, v.exchanges = u.exchanges ++ [x]) ∧
      (v.files = files ∨ ∃ l, files.locate .entry p = .ok l ∧ v.files = files.remove l) := by
  have hargv := Call.argv_ne_nil (k.output?_stripCall p flags)
  have hcalled := k.host.exchanges_hostRun hargv u
  rw [Linker.run_strip] at h
  rcases hrun : (k.host.run (k.stripCall p flags)).run u with ⟨e' | result, m⟩
  · have hconfined : k.host.tools.Confined := hk ▸ ho.confined
    have hsame := hconfined.of_error hrun
    have hscratch := scratch_hostRun hrun
    rw [hrun] at h hcalled
    -- whatever the failure, the state is that of the call, but for a removal
    have hcases : v = m ∨ v = { m with files := ((Disk.removeIfPresent p).run m.files).2 } := by
      rcases e' with problem | fault
      · cases problem with
        | toolFailed tool stage input arch exit =>
            dsimp only at h
            rw [Build.run_onDisk] at h
            rcases hremove : (Disk.removeIfPresent p).run m.files with ⟨fault | _, files⟩
            · rw [hremove] at h
              exact .inr (congrArg Prod.snd h).symm
            · rw [hremove] at h
              exact .inr (congrArg Prod.snd h).symm
        | _ => exact .inl (congrArg Prod.snd h).symm
      · exact .inl (congrArg Prod.snd h).symm
    rcases hcases with rfl | rfl
    · exact ⟨_, hsame, hscratch, ⟨_, hcalled⟩, .inl rfl⟩
    · refine ⟨_, hsame, hscratch, ⟨_, hcalled⟩, ?_⟩
      dsimp only
      rcases Disk.removeIfPresent_cases p m.files with ⟨fault, hremove⟩ | hremove |
        ⟨l, _, hlocate, -, -, hremove⟩
      · exact .inl (by rw [hremove])
      · exact .inl (by rw [hremove])
      · exact .inr ⟨l, hlocate, by rw [hremove]⟩
  · rw [hrun] at h
    exact absurd h ok_ne_error

/-- What is finished is told by where paths resolve to. -/
theorem Advances.spares (ho : j.Orderly) (hlinks : t.LinkFree) (hrooted : t.Rooted)
    (hricher : Enriched t u.files) (hu : Sheltered t u) {done : Finished}
    (h : j.Advances u done v) : j.Spares t u v := by
  have hsparing := h.sparing ho hrooted hu
  obtain ⟨made, hmade, hdone⟩ := h.exchanges
  refine ⟨hsparing.sheltered.rests, hsparing.keeps, made, hmade, fun l => ?_⟩
  refine (hsparing.frame l).imp_right (Or.imp_left ?_)
  rintro ⟨p, hp, hlocate⟩
  obtain ⟨d, hd, rfl⟩ := List.mem_map.mp hp
  obtain ⟨hfinished, hsub⟩ := hdone d hd
  obtain ⟨x, hx, hmakes⟩ := hfinished.exists_makes
  have hricher' := hricher.trans hsparing.richer
  exact ⟨d.1, h.output_of_mem hd, hricher'.resolve_of_locate hlinks hlocate, x, hsub hx, hmakes⟩

/-- **Where the work ends early**, it has touched an output at most. -/
theorem Stops.spares (ho : j.Orderly) (hlinks : t.LinkFree) (hrooted : t.Rooted)
    (hricher : Enriched t u.files)
    (hu : Sheltered t u) (h : j.Stops u e v) : j.Spares t u v := by
  have hnothing : j.Spares t u u := (Sparing.refl hu).spares (List.append_nil _).symm
  -- only a strip that fails has touched more than scratch files: what was linked
  cases h with
  | halts hhalts =>
      obtain ⟨hsparing, _, hmade⟩ := hhalts.sparing ho hu
      exact hsparing.spares hmade
  | beside _ hhalts hadvances =>
      obtain ⟨hsparing, _, hmade⟩ := hhalts.sparing ho hu
      exact (hsparing.spares hmade).trans (hadvances.spares ho hlinks hrooted
        (hricher.trans hsparing.richer) hsparing.sheltered)
  | write _ hrun =>
      rw [Disk.call_error hrun]
      exact hnothing
  | @parents p fault files hp hrun =>
      have hmade : u.scratch.directory ≠ none := hp.elim (fun hf => hu.made hf) And.left
      have hgrown := Disk.grown_makeDirectories p.parent u.files
      rw [hrun] at hgrown
      exact (Sparing.of_grown hu hmade hgrown).spares (List.append_nil _).symm
  | name _ _ => exact hnothing
  | metadata _ _ => exact hnothing
  | @strip m _ k p c result flags _ hk hkind houtput hmade hcalls hlink hstrip =>
      have hlinked := sparing_output ho hu hmade (ho.isWritten_output houtput) hcalls.output hlink
      obtain ⟨files, hsame, hscratch, ⟨x, hx⟩, hfiles⟩ := strip_error ho hk hstrip
      have hstripped := hlinked.trans (.of_same hlinked.sheltered (v := { m with files }) rfl hsame)
      have hricher' : Enriched t files := hricher.trans hstripped.richer
      have htouched : ∀ {aim : Aim} {l : Location}, files.locate aim p = .ok l →
          j.Touched t [j.host.exchanged c u, x] l := fun hlocate =>
        ⟨p, houtput, hricher'.resolve_of_locate hlinks hlocate, _, List.mem_cons_self,
          OutputKind.finishing_of_ne hkind ▸ hcalls.makes hlink⟩
      have hexchanges : v.exchanges = u.exchanges ++ [j.host.exchanged c u, x] := by
        rw [hx, Host.exchanges_of_ok hlink, List.append_assoc]
        rfl
      have hkeeps : Keeps u v := hlinked.keeps.trans (.of_eq hscratch)
      have hframe : ∀ l, files.fileAt? l = u.files.fileAt? l ∨
          j.Touched t [j.host.exchanged c u, x] l ∨ InScratch t v l := by
        intro l
        rcases hstripped.frame l with heq | hlocate | hinside
        · exact .inl heq
        · exact .inr (.inl (htouched ((hsame.locate_iff .target).mpr hlocate)))
        · exact .inr (.inr (hinside.mono (.of_eq hscratch)))
      -- the output is as the tool has left it, or it is removed
      rcases hfiles with hfiles | ⟨l₀, hlocate, hfiles⟩
      · refine ⟨hstripped.sheltered.rests.of_opens hscratch ?_, hkeeps, _, hexchanges, ?_⟩
        · rw [hfiles]
          exact ⟨rfl, fun _ => .inl rfl⟩
        · rw [hfiles]
          exact hframe
      · refine ⟨hstripped.sheltered.rests.of_opens hscratch ?_, hkeeps, _, hexchanges, fun l => ?_⟩
        · rw [hfiles]
          exact files.opens_of_remove l₀
        · by_cases hl : l = l₀
          · exact .inr (.inl (htouched (hl ▸ hlocate)))
          · have heq : v.files.entryAt? l = files.entryAt? l := by
              rw [hfiles, FileTree.entryAt?_remove, if_neg fun hand => hl hand.1]
            rw [FileTree.fileAt?_congr heq]
            exact hframe l

/-- **Work from its start** to its end, however it ends, touches nothing but outputs
    and scratch files. -/
theorem Goes.spares (ho : j.Orderly) (hlinks : u.files.LinkFree) (hrooted : u.files.Rooted)
    (hnone : u.scratch.directory = none) (hfiles : u.scratch.files = [])
    {post : α → World → Finished → Prop} {answer : Except Failure α}
    (h : j.Goes post u (answer, v)) : j.Spares u.files u v := by
  have hu : Sheltered u.files u := .before hnone hfiles ⟨rfl, fun _ => rfl⟩
  have hricher : Enriched u.files u.files := .refl _
  rcases answer with e | a
  · obtain ⟨done, m, hadvances, hstops⟩ := h
    have hsparing := hadvances.sparing ho hrooted hu
    exact (hadvances.spares ho hlinks hrooted hricher hu).trans
      (hstops.spares ho hlinks hrooted hsparing.richer hsparing.sheltered)
  · obtain ⟨done, hadvances, -⟩ := h
    exact hadvances.spares ho hlinks hrooted hricher hu

end Project

/-- **A build spares** every regular file that is not an output of its own.  In a tree
    without links, and with tools that write what they are told to and nothing else,
    a file that is changed, made or removed is one that a merge or link call of the
    run has put at an output, or it lies in the scratch directory, at a place that
    was free.  So an object beside a source that is compiled to be linked is spared,
    unless it is an output itself. -/
theorem run_spares (b : Builder) (r : Request) (w : World)
    (ho : Project.Orderly ⟨b.host, r, r.layout b.toolchain⟩) (hlinks : w.files.LinkFree)
    (hrooted : w.files.Rooted) :
    ∃ made, ((b.run r).run w).2.exchanges = w.exchanges ++ made ∧
      (∀ l, ((b.run r).run w).2.files.fileAt? l = w.files.fileAt? l ∨
        (∃ p, r.Output (r.layout b.toolchain) p ∧ w.files.resolve p = l ∧
          ∃ x ∈ made, x.Makes r.kind.finishing p) ∨
        ∃ c, b.cleaning? r w = some c ∧ Project.InScratch w.files c l ∧
          w.files.entryAt? l = none) ∧
      (r.kind ≠ .object → ∀ input ∈ r.inputs, ∀ object,
        input.withExtension b.toolchain.objectExtension = .ok object →
        w.files.fileAt? (w.files.resolve object) ≠ none →
        (∀ p, r.Output (r.layout b.toolchain) p → w.files.resolve p ≠ w.files.resolve object) →
        ((b.run r).run w).2.files.fileAt? (w.files.resolve object)
          = w.files.fileAt? (w.files.resolve object)) := by
  have hframe : ∃ made, ((b.run r).run w).2.exchanges = w.exchanges ++ made ∧
      ∀ l, ((b.run r).run w).2.files.fileAt? l = w.files.fileAt? l ∨
        (∃ p, r.Output (r.layout b.toolchain) p ∧ w.files.resolve p = l ∧
          ∃ x ∈ made, x.Makes r.kind.finishing p) ∨
        ∃ c, b.cleaning? r w = some c ∧ Project.InScratch w.files c l ∧
          w.files.entryAt? l = none := by
    rcases b.worked_or r w with ⟨tools, answer, v, hworked⟩ | ⟨hfiles, hexchanges⟩
    · have hgoes := Project.goesFrom_buildArtifacts b r (r.layout b.toolchain) tools (b.begun r w)
      unfold Project.GoesFrom at hgoes
      rw [hworked.work] at hgoes
      obtain ⟨hrests, -, made, hmade, hframe⟩ :=
        hgoes.spares (u := b.begun r w) ho hlinks hrooted rfl rfl
      have hinside : ∀ l, Project.InScratch w.files v l → ∃ c, b.cleaning? r w = some c ∧
          Project.InScratch w.files c l ∧ w.files.entryAt? l = none := by
        rintro l ⟨place, hplace, hbelow⟩
        have hnoting := World.scratch_noting answer v
        exact ⟨_, hworked.cleaning, ⟨place, hplace.mono (.of_eq hnoting), hbelow⟩,
          hrooted.free hplace.free hbelow⟩
      refine ⟨made, hworked.exchanges_run.trans hmade, fun l => ?_⟩
      rw [hworked.files_run]
      by_cases hl : Project.InScratch w.files v l
      · exact .inr (.inr (hinside l hl))
      · rw [FileTree.fileAt?_congr (hrests.entryAt?_cleanUp hl)]
        exact (hframe l).imp_right (Or.imp_right (hinside l))
    · refine ⟨[], hexchanges.trans (List.append_nil _).symm, fun l => .inl ?_⟩
      rw [hfiles]
  obtain ⟨made, hmade, hframe⟩ := hframe
  refine ⟨made, hmade, hframe, fun _ _ _ object _ hthere hapart => ?_⟩
  -- an object that was there is no scratch file: the place of one was free
  rcases hframe (w.files.resolve object) with heq | ⟨p, houtput, hresolve, -⟩ | ⟨_, _, -, hfree⟩
  · exact heq
  · exact absurd hresolve (hapart p houtput)
  · refine absurd ?_ hthere
    unfold FileTree.fileAt?
    rw [hfree]
    rfl

/-- A builder whose tools write the names of their stages. -/
def markingBuilder (objectExtension : String) : Builder where
  host := { tools := Toolset.marking fun c => c.stage.name, scratchId := Text.hex 1 }
  toolchain := { objectExtension }
  locator := idleBuilder.locator

/-- A source with an object of its name beside it. -/
def besideWorld : World where
  files := ⟨["w"], [(["w"], .directory), (["w", "a.rb"], .file [] false),
    (["w", "a.o"], .file [0] false), (["w", "tmp"], .directory)]⟩

private theorem beside_linkFree : besideWorld.files.LinkFree :=
  FileTree.linkFree_of_entries (by decide)

private theorem beside_rooted : besideWorld.files.Rooted :=
  FileTree.rooted_of_entries (by decide)

/-- The one output of an executable made of `a.rb` is `a`. -/
private theorem beside_output {p : Path} {t : Toolchain}
    (h : (programRequest [.ofString "a.rb"]).Output t p) :
    besideWorld.files.resolve p ≠ ["w", "a.o"] := by
  cases h with
  | given hgiven => exact nomatch hgiven
  | object hkind _ _ _ => exact nomatch hkind
  | bundle hkind _ _ _ => exact nomatch hkind
  | executable _ _ hfirst hname =>
      have hplain : (Path.ofString "a.rb").withExtension "" = .ok (.ofString "a") :=
        eq_ok_of_toOption (by decide)
      rw [← Option.some.inj hfirst] at hname
      rw [Except.ok.inj (hname.symm.trans hplain)]
      decide

/-- The object beside the source is the same afterwards, although the source was
    compiled. -/
theorem run_spares_beside :
    besideWorld.files.LinkFree ∧ besideWorld.files.Rooted ∧
      besideWorld.files.fileAt? ["w", "a.o"] = some (.file [0] false) ∧
      (((markingBuilder ".o").run (programRequest [.ofString "a.rb"])).run
        besideWorld).2.files.fileAt? ["w", "a.o"] = some (.file [0] false) := by
  have ho : Project.Orderly ⟨(markingBuilder ".o").host, programRequest [.ofString "a.rb"],
      (programRequest [.ofString "a.rb"]).layout (markingBuilder ".o").toolchain⟩ := by
    refine ⟨(Toolset.faithful_marking _).confined, Text.slash_not_mem_hex 1, by decide, ?_, nofun⟩
    exact List.forall_mem_singleton.mpr (Path.isWritten_ofString _)
  obtain ⟨-, -, -, hbeside⟩ := run_spares (markingBuilder ".o") (programRequest [.ofString "a.rb"])
    besideWorld ho beside_linkFree beside_rooted
  have hobject : (Path.ofString "a.rb").withExtension
    (markingBuilder ".o").toolchain.objectExtension
      = .ok (.ofString "a.o") := eq_ok_of_toOption (by decide)
  have hresolve : besideWorld.files.resolve (.ofString "a.o") = ["w", "a.o"] := by decide
  have hthere : besideWorld.files.fileAt? ["w", "a.o"] = some (.file [0] false) := by
    decide
  have hspared := hbeside (by decide) _ List.mem_cons_self _ hobject
  rw [hresolve, hthere] at hspared
  exact ⟨beside_linkFree, beside_rooted, hthere,
    hspared nofun fun _ houtput => beside_output houtput⟩

/-- With an object extension that goes up by double dots, the object beside the
    source is what the source is compiled to, and is removed as a scratch file. -/
theorem run_takes_object_beside :
    (markingBuilder "/../../../a.o").host.tools.Confined ∧ besideWorld.files.LinkFree ∧
      besideWorld.files.Rooted ∧
      (∀ p, (programRequest [.ofString "a.rb"]).Output
        (markingBuilder "/../../../a.o").toolchain p →
        besideWorld.files.resolve p ≠ ["w", "a.o"]) ∧
      (∀ c, (markingBuilder "/../../../a.o").cleaning?
        (programRequest [.ofString "a.rb"]) besideWorld
          = some c → ¬ Project.InScratch besideWorld.files c ["w", "a.o"]) ∧
      besideWorld.files.fileAt? ["w", "a.o"] = some (.file [0] false) ∧
      (((markingBuilder "/../../../a.o").run (programRequest [.ofString "a.rb"])).run
        besideWorld).2.files.entryAt? ["w", "a.o"] = none := by
  have hthere : besideWorld.files.fileAt? ["w", "a.o"] = some (.file [0] false) := by
    decide
  refine ⟨(Toolset.faithful_marking _).confined, beside_linkFree, beside_rooted, ?_, ?_, hthere, ?_⟩
  · exact fun _ houtput => beside_output houtput
  · rintro c - ⟨place, hmade, hbelow⟩
    unfold FileTree.fileAt? at hthere
    rw [beside_rooted.free hmade.free hbelow] at hthere
    exact nomatch hthere
  · decide +kernel

end AheadOfTime
