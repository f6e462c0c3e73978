import AheadOfTime.Proofs.Cleaning
import AheadOfTime.Proofs.DefaultOutput
import AheadOfTime.Proofs.Work
import Mathlib.Data.List.Induction

/-! # What a build leaves alone

    With tools that write what they are told to write and nothing else, the work on
    a request changes no regular file but in the scratch directory and where its
    outputs are to be.  The directory stands at a place that was free, so no file of
    anyone else lies in it, and a scratch file lies nowhere else, because its path
    leads into the directory for as long as the way to it is steady.

    `Sheltered` is what holds between two steps.  Each step keeps it and changes
    only what it may (`Step.sparing`, `Finish.sparing`), and so does a row of steps
    (`Advances.sparing`).  Where the work ends early, the way to the scratch
    directory may be cut, but it leads nowhere else (`Rests`); so the cleaning, too,
    stays in there (`Rests.cleanUp`). -/

namespace AheadOfTime

/-! ## Regular files -/

namespace FileTree

variable {t t' : FileTree} {p : Path} {l l₀ : Location}

/-- The regular file at a location, if there is one. -/
def fileAt? (t : FileTree) (l : Location) : Option Entry := (t.entryAt? l).filter isRegular

theorem fileAt?_congr (h : t'.entryAt? l = t.entryAt? l) : t'.fileAt? l = t.fileAt? l :=
  congrArg (Option.filter isRegular) h

/-- A directory where nothing stood changes no regular file. -/
theorem fileAt?_put_directory (hfree : t.entryAt? l₀ = none) (l : Location) :
    (t.put l₀ .directory).fileAt? l = t.fileAt? l := by
  have hl₀ : l₀ ≠ [] := by
    rintro rfl
    exact nomatch hfree
  by_cases hl : l = l₀
  · unfold fileAt?
    rw [hl, hfree, t.entryAt?_put hl₀]
    rfl
  · exact fileAt?_congr (t.entryAt?_put_of_ne _ hl)

/-- Trees that hold the same hold the same files. -/
theorem Same.fileAt?_eq (h : Same t t') (l : Location) : t'.fileAt? l = t.fileAt? l :=
  fileAt?_congr (h.entries l)

/-- New directories are no files. -/
theorem Grown.fileAt?_eq (h : Grown p t t') (l : Location) : t'.fileAt? l = t.fileAt? l := by
  rcases h.entries l with heq | ⟨hfree, hdirectory, -⟩
  · exact fileAt?_congr heq
  · unfold fileAt?
    rw [hfree, hdirectory]
    rfl

/-- A file changes only where it is written. -/
theorem Wrote.fileAt?_eq (h : Wrote p t t') (l : Location) :
    t'.fileAt? l = t.fileAt? l ∨ t.locate .creation p = .ok l :=
  (h.entries l).imp fileAt?_congr And.left

/-! ## Trees without loose ends -/

/-- Whatever is there stands in a directory. -/
def Rooted (t : FileTree) : Prop :=
  ∀ l, t.entryAt? l ≠ none → t.entryAt? l.dropLast = some .directory

/-- Trees that hold the same are rooted alike. -/
theorem Rooted.of_same (h : t.Rooted) (hsame : Same t t') : t'.Rooted := by
  intro l hl
  rw [hsame.entries] at hl ⊢
  exact h l hl

/-- Nothing is below a free place. -/
theorem Rooted.free (h : t.Rooted) (hfree : t.entryAt? l₀ = none) (hbelow : l₀ <+: l) :
    t.entryAt? l = none := by
  obtain ⟨more, rfl⟩ := hbelow
  induction more using List.reverseRecOn with
  | nil =>
      rw [List.append_nil]
      exact hfree
  | append_singleton more name ih =>
      refine Decidable.of_not_not fun hthere => ?_
      have hparent := h _ hthere
      rw [← List.append_assoc, List.dropLast_concat, ih] at hparent
      exact nomatch hparent

/-- **The way to a new directory** is steady. -/
theorem Rooted.steady {d : Path} (h : t.Rooted) (hlocate : t.locate .entry d = .ok l₀)
    (hfree : t.entryAt? l₀ = none) : Steady d l₀ (t.put l₀ .directory) := by
  have hl₀ : l₀ ≠ [] := by
    rintro rfl
    exact nomatch hfree
  have hsame : Same t ((t.put l₀ .directory).removeBelow l₀) := by
    refine ⟨rfl, fun l => ?_⟩
    rw [entryAt?_removeBelow]
    by_cases hbelow : l₀ <+: l ∧ l ≠ []
    · rw [if_pos hbelow, h.free hfree hbelow.1]
    · rw [if_neg hbelow]
      refine t.entryAt?_put_of_ne _ ?_
      rintro rfl
      exact hbelow ⟨List.prefix_refl _, hl₀⟩
  refine ⟨(hsame.locate_iff .entry).mpr hlocate, fun l hbelow e he => ?_⟩
  by_cases hl : l = l₀
  · rw [hl, t.entryAt?_put hl₀] at he
    rw [← Option.some.inj he]
    rfl
  · rw [t.entryAt?_put_of_ne _ hl, h.free hfree hbelow] at he
    exact nomatch he

/-! ## Trees by their entries -/

/-- What stands at a location is an entry, unless it is the root. -/
theorem mem_entries {e : Entry} (h : t.entryAt? l = some e) :
    (l = [] ∧ e = .directory) ∨ (l, e) ∈ t.entries := by
  unfold entryAt? at h
  split at h
  · rename_i hroot
    exact .inl ⟨hroot, (Option.some.inj h).symm⟩
  · obtain ⟨before, after, heq, -⟩ := List.lookup_eq_some_iff.mp h
    rw [heq]
    exact .inr (List.mem_append_right _ List.mem_cons_self)

/-- A tree is rooted if the directories of its entries are there. -/
theorem rooted_of_entries
    (h : ∀ entry ∈ t.entries, t.entryAt? entry.1.dropLast = some .directory) : t.Rooted := by
  intro l hl
  obtain ⟨e, he⟩ := Option.ne_none_iff_exists'.mp hl
  rcases mem_entries he with ⟨rfl, -⟩ | hin
  · rfl
  · exact h _ hin

end FileTree

open FileTree (Same Wrote Enriched Grown Rooted Steady Loose Emptied)

/-! ## Paths of outputs -/

namespace Path

variable {p q : Path} {extension : String}

/-- A written path stays one with another extension. -/
theorem isWritten_withExtension (hp : p.IsWritten) (h : p.withExtension extension = .ok q) :
    q.IsWritten := by
  obtain ⟨hplain, hname, rfl⟩ := withExtension_ok h
  intro name hin
  rcases List.mem_append.mp hin with habove | hlast
  · exact hp name (List.dropLast_subset _ habove)
  · have hin : p.name ∈ p.parts := by
      unfold Path.name at hname ⊢
      rcases hparts : p.parts.getLast? with _ | last
      · rw [hparts] at hname
        exact absurd rfl hname
      · exact List.mem_of_getLast? hparts
    have hslash : '/' ∉ p.stem.toList := by
      intro hstem
      refine (hp _ hin).2 ?_
      rw [← p.stem_append_extension, String.toList_append]
      exact List.mem_append_left _ hstem
    rw [List.mem_singleton.mp hlast, String.toList_append, List.mem_append, not_or]
    refine ⟨fun hempty => stem_ne_empty hname ?_, hslash, hplain⟩
    exact (String.append_eq_empty_iff.mp hempty).1

end Path

namespace Project

/-- The tools write nothing but what they are told to, and the names that a build
    puts together are single names. -/
structure Orderly (j : Project) : Prop where
  confined : j.host.tools.Confined
  ids : ∀ n, '/' ∉ (j.host.scratchId n).toList
  extension : '/' ∉ j.layout.objectExtension.toList
  inputs : ∀ p ∈ j.request.inputs, p.IsWritten
  output : ∀ p, j.request.output = some p → p.IsWritten

variable {j : Project} {t : FileTree} {u v w : World}

/-- An output is a path that is written as it is read. -/
theorem Orderly.isWritten_output (h : j.Orderly) {p : Path}
    (hp : j.request.Output j.layout p) : p.IsWritten := by
  cases hp with
  | given hgiven => exact h.output p hgiven
  | object _ _ hinput hname => exact Path.isWritten_withExtension (h.inputs _ hinput) hname
  | bundle _ _ hinput hname => exact Path.isWritten_withExtension (h.inputs _ hinput) hname
  | executable _ _ hfirst hname =>
      exact Path.isWritten_withExtension (h.inputs _ (List.mem_of_head? hfirst)) hname

/-- A scratch file has no slash in its extension. -/
theorem Orderly.slash_not_mem (h : j.Orderly) {extension : String}
    (hextension : extension ∈ j.layout.scratchExtensions) : '/' ∉ extension.toList := by
  rcases List.mem_cons.mp hextension with rfl | hother
  · exact h.extension
  · rcases List.mem_cons.mp hother with rfl | hother
    · decide
    · exact Scratch.slash_not_mem_extension hother

/-! ## Shelter -/

/-- The scratch directory was made at this place, which was free in the tree. -/
def MadeAt (t : FileTree) (u : World) (place : Location) : Prop :=
  ∃ d, u.scratch.directory = some d ∧ t.locate .entry d = .ok place ∧ t.entryAt? place = none

/-- The location is that of the scratch directory, or lies below. -/
def InScratch (t : FileTree) (u : World) (l : Location) : Prop :=
  ∃ place, MadeAt t u place ∧ place <+: l

theorem MadeAt.free {place : Location} (h : MadeAt t u place) : t.entryAt? place = none :=
  h.elim fun _ hd => hd.2.2

/-- The scratch directory has one place only. -/
theorem MadeAt.eq {place place' : Location} (h : MadeAt t u place) (h' : MadeAt t u place') :
    place = place' := by
  obtain ⟨d, hd, hlocate, -⟩ := h
  obtain ⟨d', hd', hlocate', -⟩ := h'
  obtain rfl : d = d' := Option.some.inj (hd.symm.trans hd')
  exact Except.ok.inj (hlocate.symm.trans hlocate')

/-- It stays there as long as the session keeps it. -/
theorem MadeAt.mono {place : Location} (h : MadeAt t u place) (hkeeps : Keeps u v) :
    MadeAt t v place := by
  obtain ⟨d, hd, hplace⟩ := h
  exact ⟨d, (hkeeps.directory (by rw [hd]; exact nofun)).trans hd, hplace⟩

theorem InScratch.mono {l : Location} (h : InScratch t u l) (hkeeps : Keeps u v) :
    InScratch t v l :=
  h.imp fun _ ⟨hmade, hbelow⟩ => ⟨hmade.mono hkeeps, hbelow⟩

/-- What holds between two steps of work that began with the tree `t`: nothing has
    been changed, or the way to the scratch directory is steady and the scratch
    files are named in it. -/
inductive Sheltered (t : FileTree) (u : World) : Prop where
  | before : u.scratch.directory = none → u.scratch.files = [] → Same t u.files → Sheltered t u
  | behind {d : Path} {place : Location} : u.scratch.directory = some d → d.IsWritten →
      t.locate .entry d = .ok place → t.entryAt? place = none → Steady d place u.files →
      (∀ f ∈ u.scratch.files, d.IsScratch f ∧ f.IsWritten) → Sheltered t u

namespace Sheltered

/-- Nothing but the files has changed, and those not at all. -/
theorem of_same (h : Sheltered t u) (hscratch : v.scratch = u.scratch)
    (hsame : Same u.files v.files) : Sheltered t v := by
  cases h with
  | before hnone hfiles hbefore =>
      refine .before (hscratch ▸ hnone) (hscratch ▸ hfiles) ⟨?_, fun l => ?_⟩
      · exact hsame.workingDirectory.trans hbefore.workingDirectory
      · exact (hsame.entries l).trans (hbefore.entries l)
  | behind hmade hwritten hlocate hfree hsteady hfiles =>
      exact .behind (hscratch ▸ hmade) hwritten hlocate hfree
        (hsteady.of_spares (hsame.enriched.spares _)) (hscratch ▸ hfiles)

/-- Behind the making of the directory, trees may grow richer. -/
theorem of_enriched (h : Sheltered t u) (hmade : u.scratch.directory ≠ none)
    (hscratch : v.scratch = u.scratch) (hricher : Enriched u.files v.files) : Sheltered t v := by
  cases h with
  | before hnone _ _ => exact absurd hnone hmade
  | behind hmade hwritten hlocate hfree hsteady hfiles =>
      exact .behind (hscratch ▸ hmade) hwritten hlocate hfree
        (hsteady.of_spares (hricher.spares _)) (hscratch ▸ hfiles)

/-- The scratch directory is made where nothing stood when the work began. -/
theorem directory (h : Sheltered t u) (hrooted : t.Rooted) (hnone : u.scratch.directory = none)
    {place : Location} (hplace : u.files.locate .entry (.ofString u.scratchText) = .ok place)
    (hfree : u.files.entryAt? place = none) :
    Sheltered t { u with
      scratchDirectories := u.scratchDirectories + 1
      files := u.files.put place .directory
      scratch := { u.scratch with directory := some (.ofString u.scratchText) } } := by
  cases h with
  | behind hmade _ _ _ _ _ => exact nomatch hnone.symm.trans hmade
  | before _ hfiles hsame =>
      refine .behind rfl (Path.isWritten_ofString _) ((hsame.locate_iff _).mp hplace)
        ((hsame.entries place).symm.trans hfree) ((hrooted.of_same hsame).steady hplace hfree) ?_
      intro f hf
      rw [show u.scratch.files = [] from hfiles] at hf
      exact nomatch hf

/-- A scratch file more is named in the scratch directory. -/
theorem handOut (h : Sheltered t u) (ho : j.Orderly) {d : Path}
    (hmade : u.scratch.directory = some d) (stem : String) {extension : String}
    (hextension : extension ∈ j.layout.scratchExtensions) :
    Sheltered t (u.withScratchFile
      (d.child (Scratch.fileName stem (j.host.scratchId (u.scratchIds + 1)) extension))) := by
  cases h with
  | before hnone _ _ => exact nomatch hnone.symm.trans hmade
  | @behind d' place hmade' hwritten hplace hfree hsteady hfiles =>
      obtain rfl : d = d' := Option.some.inj (hmade.symm.trans hmade')
      have hslash := ho.slash_not_mem hextension
      refine .behind hmade hwritten hplace hfree hsteady fun f hf => ?_
      rcases List.mem_append.mp hf with hold | hnew
      · exact hfiles f hold
      · rw [List.mem_singleton.mp hnew]
        refine ⟨Scratch.isScratch_fileName d stem (ho.ids _) hslash, ?_⟩
        obtain ⟨hplain, hdot, -⟩ := Scratch.isProper_fileName stem (ho.ids _) hslash
        rw [d.child_of_name hplain hdot]
        intro name hname
        rcases List.mem_append.mp hname with habove | hlast
        · exact hwritten name habove
        · rw [List.mem_singleton.mp hlast]
          exact ⟨fun hempty => hdot (.inl hempty), hplain⟩

/-- Scratch files are only handed out behind the making of the directory. -/
theorem made (h : Sheltered t u) {f : Path} (hf : f ∈ u.scratch.files) :
    u.scratch.directory ≠ none := by
  cases h with
  | before _ hfiles _ =>
      rw [hfiles] at hf
      exact nomatch hf
  | behind hmade _ _ _ _ _ =>
      rw [hmade]
      exact nofun

/-- Scratch files are written as they are read. -/
theorem isWritten (h : Sheltered t u) {f : Path} (hf : f ∈ u.scratch.files) : f.IsWritten := by
  cases h with
  | before _ hfiles _ =>
      rw [hfiles] at hf
      exact nomatch hf
  | behind _ _ _ _ _ hfiles => exact (hfiles f hf).2

/-- **A scratch file** is in the scratch directory, or nowhere. -/
theorem inScratch (h : Sheltered t u) {f : Path} (hf : f ∈ u.scratch.files) {aim : Aim}
    {l : Location} (hlocate : u.files.locate aim f = .ok l) : InScratch t u l := by
  cases h with
  | before _ hfiles _ =>
      rw [hfiles] at hf
      exact nomatch hf
  | @behind d place hmade _ hplace hfree hsteady hfiles =>
      obtain ⟨⟨name, hdot, hup, rfl⟩, -⟩ := hfiles f hf
      refine ⟨place, ⟨d, hmade, hplace, hfree⟩, ?_⟩
      rw [hsteady.inside hdot hup hlocate]
      exact List.prefix_append _ _

end Sheltered

/-- Work that keeps the shelter: the tree grows richer, and a regular file has
    changed only where it may have been touched, or in the scratch directory. -/
structure Sparing (t : FileTree) (touches : Location → Prop) (u v : World) : Prop where
  sheltered : Sheltered t v
  keeps : Keeps u v
  richer : Enriched u.files v.files
  frame : ∀ l, v.files.fileAt? l = u.files.fileAt? l ∨ touches l ∨ InScratch t v l

namespace Sparing

variable {touches touches' : Location → Prop}

theorem refl (h : Sheltered t u) : Sparing t touches u u :=
  ⟨h, .of_eq rfl, .refl _, fun _ => .inl rfl⟩

theorem mono (h : Sparing t touches u v) (himp : ∀ l, touches l → touches' l) :
    Sparing t touches' u v :=
  ⟨h.sheltered, h.keeps, h.richer, fun l => (h.frame l).imp_right (Or.imp_left (himp l))⟩

/-- What spares a file twice has spared it. -/
theorem trans (h : Sparing t touches u v) (h' : Sparing t touches v w) :
    Sparing t touches u w := by
  refine ⟨h'.sheltered, h.keeps.trans h'.keeps, h.richer.trans h'.richer, fun l => ?_⟩
  rcases h'.frame l with heq | hlater
  · rw [heq]
    exact (h.frame l).imp_right (Or.imp_right fun hin => hin.mono h'.keeps)
  · exact .inr hlater

/-- No file has changed. -/
theorem of_same (h : Sheltered t u) (hscratch : v.scratch = u.scratch)
    (hsame : Same u.files v.files) : Sparing t touches u v :=
  ⟨h.of_same hscratch hsame, .of_eq hscratch, hsame.enriched, fun l => .inl (hsame.fileAt?_eq l)⟩

/-- Directories were made. -/
theorem of_grown (h : Sheltered t u) (hmade : u.scratch.directory ≠ none) {p : Path}
    {files : FileTree} (hgrown : Grown p u.files files) :
    Sparing t touches u { u with files } :=
  ⟨h.of_enriched hmade rfl hgrown.enriched, .of_eq rfl, hgrown.enriched,
    fun l => .inl (hgrown.fileAt?_eq l)⟩

/-- A file was written where the path leads. -/
theorem of_wrote (h : Sheltered t u) (hmade : u.scratch.directory ≠ none)
    (hscratch : v.scratch = u.scratch) {p : Path} (hwrote : Wrote p u.files v.files)
    (htouches : ∀ l, u.files.locate .creation p = .ok l → touches l ∨ InScratch t v l) :
    Sparing t touches u v :=
  ⟨h.of_enriched hmade hscratch hwrote.enriched, .of_eq hscratch, hwrote.enriched,
    fun l => (hwrote.fileAt?_eq l).imp_right (htouches l)⟩

/-- A scratch file was written. -/
theorem of_wrote_scratch (h : Sheltered t u) (hscratch : v.scratch = u.scratch) {f : Path}
    (hf : f ∈ u.scratch.files) (hwrote : Wrote f u.files v.files) : Sparing t touches u v :=
  .of_wrote h (h.made hf) hscratch hwrote
    fun _ hlocate => .inr ((h.inScratch hf hlocate).mono (.of_eq hscratch))

end Sparing

/-- **A small step** touches nothing but scratch files. -/
theorem Step.sparing (ho : j.Orderly) (hrooted : t.Rooted) (hu : Sheltered t u)
    (h : j.Step u v) : Sparing t (fun _ => False) u v := by
  cases h with
  | still halike =>
      refine .of_same hu halike.scratch ?_
      rw [halike.files]
      exact ⟨rfl, fun _ => rfl⟩
  | noDirectory => exact .of_same hu rfl ⟨rfl, fun _ => rfl⟩
  | directory hnone hrun =>
      obtain ⟨place, hplace, hfree, rfl⟩ := Disk.makeDirectoryAs_ok hrun
      exact ⟨hu.directory hrooted hnone hplace hfree,
        ⟨fun hmade => absurd hnone hmade, List.Subset.refl _⟩, FileTree.enriched_put hfree rfl,
        fun l => .inl (FileTree.fileAt?_put_directory hfree l)⟩
  | handOut stem hmade hextension =>
      exact ⟨hu.handOut ho hmade stem hextension, ⟨fun _ => rfl, List.subset_append_left _ _⟩,
        .refl _, fun _ => .inl rfl⟩
  | write hf hrun => exact .of_wrote_scratch hu rfl hf (Disk.wrote_writeText hrun)
  | @parents p files hp hrun =>
      have hmade : u.scratch.directory ≠ none := hp.elim (fun hf => hu.made hf) And.left
      have hgrown := Disk.grown_makeDirectories p.parent u.files
      rw [hrun] at hgrown
      exact .of_grown hu hmade hgrown
  -- a tool that keeps to its call writes at most a scratch file
  | @call c program hprepares =>
      rcases ho.confined.of_asked c program u with hsame | ⟨p, hp, hwrote⟩
      · exact .of_same hu rfl hsame
      · rcases hprepares with hnone | ⟨f, hf, hcalled⟩
        · exact nomatch hnone.symm.trans hp
        · obtain rfl := Option.some.inj (hp.symm.trans hcalled)
          exact .of_wrote_scratch hu rfl hf (hwrote.of_spelled (hu.isWritten hf))

/-- **A step that comes to nothing** touches nothing at all, and has made one call at
    most. -/
theorem Halts.sparing (ho : j.Orderly) (hu : Sheltered t u) {e : Failure} (h : j.Halts u e v) :
    Sparing t (fun _ => False) u v ∧ ∃ made, v.exchanges = u.exchanges ++ made := by
  cases h with
  | problem halike =>
      refine ⟨.of_same hu halike.scratch ?_, [], ?_⟩
      · rw [halike.files]
        exact ⟨rfl, fun _ => rfl⟩
      · rw [halike.exchanges, List.append_nil]
  | directory _ hrun =>
      rw [Disk.call_error hrun]
      exact ⟨.of_same hu rfl ⟨rfl, fun _ => rfl⟩, [], (List.append_nil _).symm⟩
  | call hargv hrun =>
      have hcalled := j.host.exchanges_hostRun hargv u
      rw [hrun] at hcalled
      exact ⟨.of_same hu (scratch_hostRun hrun) (ho.confined.of_error hrun), _, hcalled⟩

/-! ## Outputs -/

/-- A call for an output touches at most the place that it leads to. -/
theorem sparing_output (ho : j.Orderly) (hu : Sheltered t u) (hmade : u.scratch.directory ≠ none)
    {p : Path} (hp : p.IsWritten) {c : Call} (hc : c.output? = some (.spelled p.toString))
    {result : ToolResult} (hrun : (j.host.run c).run u = (.ok result, v)) :
    Sparing t (fun l => v.files.locate .target p = .ok l) u v := by
  have hscratch := scratch_hostRun hrun
  rcases ho.confined.of_ok hrun with hsame | ⟨q, hq, hwrote⟩
  · exact .of_same hu hscratch hsame
  · obtain rfl := Option.some.inj (hq.symm.trans hc)
    have hwrote' := hwrote.of_spelled hp
    refine .of_wrote hu hmade hscratch hwrote' fun l hlocate => .inl ?_
    exact FileTree.locate_of_opens (hwrote'.enriched.opens .target) (.inr ⟨rfl, rfl⟩) hlocate

/-- **An output that is finished** is all that is touched. -/
theorem Finish.sparing (ho : j.Orderly) (hu : Sheltered t u) (hmade : u.scratch.directory ≠ none)
    {p : Path} (hp : p.IsWritten) {xs : List Exchange} (h : j.Finish p xs u v) :
    Sparing t (fun l => v.files.locate .target p = .ok l) u v := by
  cases h with
  | merged _ hcalls hrun => exact sparing_output ho hu hmade hp hcalls.output hrun
  | linked _ hlinks hstrips hlink hstrip =>
      have hfirst := sparing_output ho hu hmade hp hlinks.output hlink
      have hsecond := sparing_output ho hfirst.sheltered (hfirst.keeps.made hmade) hp
        hstrips.output hstrip
      refine (hfirst.mono fun l hlocate => ?_).trans hsecond
      exact FileTree.locate_of_opens (hsecond.richer.opens .target) (.inl rfl) hlocate

/-- **The work** touches nothing but scratch files and the places of the outputs that
    it finishes. -/
theorem Advances.sparing (ho : j.Orderly) (hrooted : t.Rooted) (hu : Sheltered t u)
    {done : Finished} (h : j.Advances u done v) :
    Sparing t (fun l => ∃ p ∈ done.map Prod.fst, v.files.locate .target p = .ok l) u v := by
  induction h with
  | refl u => exact .refl hu
  | step hstep _ ih =>
      have hfirst := hstep.sparing ho hrooted hu
      exact (hfirst.mono fun _ => False.elim).trans (ih hfirst.sheltered)
  | finish houtput hmade hfinish _ ih =>
      have hfirst := hfinish.sparing ho hu hmade (ho.isWritten_output houtput)
      have hlater := ih hfirst.sheltered
      refine (hfirst.mono fun l hlocate => ?_).trans (hlater.mono fun l => ?_)
      · exact ⟨_, List.mem_cons_self,
          FileTree.locate_of_opens (hlater.richer.opens .target) (.inl rfl) hlocate⟩
      · exact Exists.imp fun p ⟨hin, hlocate⟩ => ⟨List.mem_cons_of_mem _ hin, hlocate⟩

/-! ## The end of the work -/

/-- What cleaning up relies on: every scratch file is named in a directory whose
    path leads to its place, or by now nowhere. -/
inductive Rests (t : FileTree) (c : World) : Prop where
  | before : c.scratch.directory = none → c.scratch.files = [] → Rests t c
  | behind {d : Path} {place : Location} : c.scratch.directory = some d →
      t.locate .entry d = .ok place → t.entryAt? place = none → Loose d place c.files →
      (∀ f ∈ c.scratch.files, d.IsScratch f) → Rests t c

variable {c : World}

/-- Work under shelter can be cleaned up. -/
theorem Sheltered.rests (h : Sheltered t u) : Rests t u := by
  cases h with
  | before hnone hfiles _ => exact .before hnone hfiles
  | behind hmade _ hplace hfree hsteady hfiles =>
      exact .behind hmade hplace hfree hsteady.loose fun f hf => (hfiles f hf).1

/-- With entries taken away, the work rests as well. -/
theorem Rests.of_opens (h : Rests t u) (hscratch : v.scratch = u.scratch)
    (hopens : FileTree.Opens .entry v.files u.files) : Rests t v := by
  cases h with
  | before hnone hfiles => exact .before (hscratch ▸ hnone) (hscratch ▸ hfiles)
  | behind hmade hplace hfree hloose hfiles =>
      exact .behind (hscratch ▸ hmade) hplace hfree (hloose.of_opens hopens) (hscratch ▸ hfiles)

/-- **Cleaning up** removes scratch files, and perhaps all that is left in the scratch
    directory, and nothing else. -/
theorem Rests.cleanUp (h : Rests t c) :
    (c.scratch.directory = none ∧ (Build.cleanUp.run c).2.files = c.files) ∨
      ∃ place emptied, MadeAt t c place ∧ Emptied place c.files emptied ∧
        ((Build.cleanUp.run c).2.files = emptied ∨
          (Build.cleanUp.run c).2.files = emptied.removeBelow place) := by
  rw [Build.files_cleanUp]
  cases h with
  | before hnone hfiles =>
      rw [hnone, hfiles]
      exact .inl ⟨rfl, rfl⟩
  | @behind d place hmade hplace hfree hloose hfiles =>
      have hemptied := Disk.emptied_forM hloose hfiles
      refine .inr ⟨place, _, ⟨d, hmade, hplace, hfree⟩, hemptied, ?_⟩
      -- the directory goes only if all its files did
      rcases hrun : (c.scratch.files.forM Disk.removeIfPresent).run c.files with ⟨fault | _, rest⟩
      · exact .inl rfl
      · rw [hrun] at hemptied
        rw [hmade]
        dsimp only
        rw [Disk.run_removeTree]
        by_cases hnul : FileTree.holdsNul d = true
        · rw [if_pos hnul]
          exact .inl rfl
        · rw [if_neg hnul]
          rcases hlocate : rest.locate .entry d with reason | l
          · exact .inl rfl
          · obtain rfl := (hloose.of_opens hemptied.opens_back).locate_eq hlocate
            dsimp only
            split
            · exact .inr rfl
            · exact .inl rfl

/-- No link is in the scratch directory. -/
theorem Rests.noLinks (h : Rests t c) {place l : Location} (hmade : MadeAt t c place)
    (hbelow : place <+: l) {e : Entry} (he : c.files.entryAt? l = some e) : e.isLink = false := by
  cases h with
  | before hnone _ =>
      obtain ⟨d, hd, -⟩ := hmade
      exact nomatch hnone.symm.trans hd
  | @behind d place' hd hplace hfree hloose _ =>
      obtain rfl : place' = place := MadeAt.eq ⟨d, hd, hplace, hfree⟩ hmade
      exact hloose.noLinks hbelow he

/-- Cleaning up stays in the scratch directory. -/
theorem Rests.entryAt?_cleanUp (h : Rests t c) {l : Location} (hl : ¬ InScratch t c l) :
    (Build.cleanUp.run c).2.files.entryAt? l = c.files.entryAt? l := by
  rcases h.cleanUp with ⟨-, hfiles⟩ | ⟨place, emptied, hmade, hemptied, hfiles⟩
  · rw [hfiles]
  · have hbelow : ¬ place <+: l := fun hbelow => hl ⟨place, hmade, hbelow⟩
    rcases hfiles with hfiles | hfiles
    · rw [hfiles, hemptied.outside hbelow]
    · rw [hfiles, FileTree.entryAt?_removeBelow, if_neg fun hand => hbelow hand.1,
        hemptied.outside hbelow]

end Project

end AheadOfTime
