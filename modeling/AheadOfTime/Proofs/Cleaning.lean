import AheadOfTime.Proofs.Course
import AheadOfTime.Proofs.Footprint
import AheadOfTime.Proofs.Plan

/-! # What a build leaves behind

    However a build ends, it cleans up: the scratch files are removed one by one
    and then the scratch directory.  A file that sticks stops the cleaning, and
    the directory stays.  `Builder.run_cleans_up` says exactly when, and that
    everything else is as it was but for what tools did and for the outputs. -/

namespace AheadOfTime

open FileTree (Steady Emptied OnTheWay)

/-- A directory other than the root stands at the path. -/
def FileTree.HoldsDirectory (t : FileTree) (p : Path) : Prop :=
  holdsNul p = false ∧ ∃ l, l ≠ [] ∧ t.locate .entry p = .ok l ∧ t.entryAt? l = some .directory

/-- No directory is left where one was to be removed with all that is in it. -/
theorem Disk.not_holdsDirectory_of_removeTree (p : Path) (t : FileTree) :
    ¬ ((removeTree p).run t).2.HoldsDirectory p := by
  rintro ⟨hnul, l, hl, hlocate, hentry⟩
  rw [run_removeTree, if_neg (by rw [hnul]; exact nofun)] at hlocate hentry
  rcases hbefore : t.locate .entry p with reason | l₀
  · rw [hbefore] at hlocate
    exact nomatch hbefore.symm.trans hlocate
  · rw [hbefore] at hlocate hentry
    dsimp only at hlocate hentry
    by_cases hdirectory : t.entryAt? l₀ = some .directory
    · rw [if_pos hdirectory] at hlocate hentry
      have hsame := FileTree.locate_of_opens (t.opens_of_removeBelow l₀) (.inl rfl) hlocate
      obtain rfl : l = l₀ := Except.ok.inj (hsame.symm.trans hbefore)
      rw [FileTree.entryAt?_removeBelow, if_pos ⟨List.prefix_refl _, hl⟩] at hentry
      exact nomatch hentry
    · rw [if_neg hdirectory] at hlocate hentry
      obtain rfl : l₀ = l := Except.ok.inj (hbefore.symm.trans hlocate)
      exact hdirectory hentry

/-! ## Cleaning up -/

namespace Build

/-- The files that cleaning up leaves: the directory is removed if all scratch
    files could be. -/
theorem files_cleanUp (w : World) : (cleanUp.run w).2.files =
    match (w.scratch.files.forM Disk.removeIfPresent).run w.files with
    | (.error _, t) => t
    | (.ok _, t) => match w.scratch.directory with
      | none => t
      | some d => ((Disk.removeTree d).run t).2 := by
  rw [run_cleanUp, Scratch.run_sweep]
  rcases (w.scratch.files.forM Disk.removeIfPresent).run w.files with ⟨fault | _, t⟩
  · rfl
  · rcases w.scratch.directory with _ | d <;> rfl

/-- Cleaning up fails if and as the removal of the scratch files does. -/
theorem answer_cleanUp (w : World) : (cleanUp.run w).1
    = ((w.scratch.files.forM Disk.removeIfPresent).run w.files).1.mapError Failure.fault := by
  rw [run_cleanUp, Scratch.run_sweep]
  rcases (w.scratch.files.forM Disk.removeIfPresent).run w.files with ⟨fault | _, t⟩
  · rfl
  · rcases w.scratch.directory with _ | d
    · rfl
    · dsimp only
      rw [Disk.run_removeTree]

/-- Whatever the files are like, the scratch directory stands behind the cleaning
    exactly if it stood when the removal of the scratch files failed. -/
theorem holdsDirectory_cleanUp_iff {w : World} {d : Path} (hmade : w.scratch.directory = some d) :
    (cleanUp.run w).2.files.HoldsDirectory d ↔ ∃ fault t,
      (w.scratch.files.forM Disk.removeIfPresent).run w.files = (.error fault, t) ∧
        t.HoldsDirectory d := by
  rw [files_cleanUp]
  rcases hrun : (w.scratch.files.forM Disk.removeIfPresent).run w.files with ⟨fault | _, t⟩
  · dsimp only
    refine ⟨fun hholds => ⟨fault, t, rfl, hholds⟩, ?_⟩
    rintro ⟨fault', t', hsame, hholds⟩
    rw [show t = t' from congrArg Prod.snd hsame]
    exact hholds
  · rw [hmade]
    refine ⟨fun hholds => absurd hholds (Disk.not_holdsDirectory_of_removeTree d t), ?_⟩
    rintro ⟨fault, t', hsame, -⟩
    exact absurd hsame ok_ne_error

end Build

namespace Site

variable {host : Host} {s : Site} {w c : World}

/-- What is left behind when a world is cleaned up that comes from `w`.  The
    scratch directory is left if it stood and its path no longer led there, or if
    one of its files sticks; otherwise nothing is left in its place.  Everything
    else is as it was but for what is accounted for, or on the way to an output. -/
structure CleanedUp (host : Host) (s : Site) (w c : World) (files : FileTree) : Prop where
  left_iff : c.scratch.directory ≠ none → (files.entryAt? s.place = some .directory ↔
    c.files.entryAt? s.place = some .directory ∧
      (c.files.locate .entry s.directory ≠ .ok s.place ∨
        ∃ f ∈ c.scratch.files, c.files.Sticks s.place f))
  gone : c.scratch.directory ≠ none → c.files.entryAt? s.place = some .directory →
    files.entryAt? s.place ≠ some .directory → ∀ l, s.place <+: l → files.entryAt? l = none
  frame : ∀ l, s.Outside c l → files.entryAt? l = w.files.entryAt? l ∨
    Accounted host s w c l ∨ ∃ p, s.IsOutput p ∧ OnTheWay c.files p l

/-- Nothing is done but to remove scratch files, unless the directory stands
    where its path leads and no file sticks: then it goes with all that is left
    in it. -/
theorem Halted.cleanUp_cases (h : Halted host s w c) :
    ∃ t, Emptied s.place c.files t ∧ (c.scratch.directory = none → t = c.files) ∧
      (((Build.cleanUp.run c).2.files = t ∧ (c.scratch.directory ≠ none →
          c.files.entryAt? s.place = some .directory →
          c.files.locate .entry s.directory = .ok s.place →
          ∃ f ∈ c.scratch.files, c.files.Sticks s.place f)) ∨
        ((Build.cleanUp.run c).2.files = t.removeBelow s.place ∧ c.scratch.directory ≠ none ∧
          s.place ≠ [] ∧ c.files.locate .entry s.directory = .ok s.place ∧
          ¬ ∃ f ∈ c.scratch.files, c.files.Sticks s.place f)) := by
  have hscratch : ∀ f ∈ c.scratch.files, s.directory.IsScratch f :=
    fun f hf => (h.holds.handedOut f hf).2
  have hemptied := Disk.emptied_forM h.loose hscratch
  have hsticks := fun hlocate hdirectory =>
    Disk.forM_removeIfPresent_error_iff h.loose hlocate hdirectory hscratch
  have hnone : c.scratch.directory = none →
      ((c.scratch.files.forM Disk.removeIfPresent).run c.files).2 = c.files := by
    intro hdirectory
    have hempty : c.scratch.files = [] := List.eq_nil_iff_forall_not_mem.mpr fun f hf =>
      (h.holds.handedOut f hf).1 hdirectory
    rw [hempty]
    rfl
  rw [Build.files_cleanUp]
  rcases hrun : (c.scratch.files.forM Disk.removeIfPresent).run c.files with ⟨fault | _, t⟩
  · -- a file sticks, and the directory is not tried
    rw [hrun] at hemptied hnone hsticks
    refine ⟨t, hemptied, hnone, .inl ⟨rfl, fun _ hdirectory hlocate => ?_⟩⟩
    exact (hsticks hlocate hdirectory).mp ⟨fault, rfl⟩
  · rw [hrun] at hemptied hnone hsticks
    refine ⟨t, hemptied, hnone, ?_⟩
    rcases hmade : c.scratch.directory with _ | d
    · exact .inl ⟨rfl, fun hsome => absurd rfl hsome⟩
    · obtain ⟨rfl, hnul, hplace⟩ := h.holds.directory d hmade
      dsimp only
      rw [Disk.run_removeTree, if_neg (by rw [hnul]; exact nofun)]
      -- no file sticks: the directory goes, if it still stands where its path leads
      by_cases hstands : c.files.locate .entry s.directory = .ok s.place ∧
          c.files.entryAt? s.place = some .directory
      · rw [hemptied.locate_eq_ok_iff.mpr hstands.1]
        dsimp only
        rw [if_pos ((hemptied.directory_iff _).mpr hstands.2)]
        refine .inr ⟨rfl, nofun, hplace, hstands.1, fun hsome => ?_⟩
        obtain ⟨fault, hfault⟩ := (hsticks hstands.1 hstands.2).mpr hsome
        exact nomatch hfault
      · refine .inl ⟨?_, fun _ hdirectory hlocate => absurd ⟨hlocate, hdirectory⟩ hstands⟩
        rcases hlocate : t.locate .entry s.directory with reason | l
        · rfl
        · have hbefore := hemptied.locate_eq_ok_iff.mp hlocate
          obtain rfl := h.loose.locate_eq hbefore
          have hother : ¬ t.entryAt? s.place = some .directory := fun hdirectory =>
            hstands ⟨hbefore, (hemptied.directory_iff _).mp hdirectory⟩
          exact if_neg hother

/-- **Cleaning up** leaves what `CleanedUp` says. -/
theorem Halted.cleanedUp (h : Halted host s w c) :
    CleanedUp host s w c (Build.cleanUp.run c).2.files := by
  obtain ⟨t, hemptied, hnone, ⟨hfiles, hsticks⟩ | ⟨hfiles, hmade, hplace, hlocate, hsticks⟩⟩ :=
    h.cleanUp_cases
  · -- the directory was not removed, and only files in it are gone
    rw [hfiles]
    refine ⟨fun hmade => ?_, fun _ hdirectory hgone => ?_, fun l hl => ?_⟩
    · rw [hemptied.directory_iff]
      refine ⟨fun hdirectory => ⟨hdirectory, ?_⟩, fun hand => hand.1⟩
      by_cases hlocate : c.files.locate .entry s.directory = .ok s.place
      · exact .inr (hsticks hmade hdirectory hlocate)
      · exact .inl hlocate
    · exact absurd ((hemptied.directory_iff _).mpr hdirectory) hgone
    · have hsame : t.entryAt? l = c.files.entryAt? l := by
        rcases hl with hdirectory | houtside
        · rw [hnone hdirectory]
        · exact hemptied.outside houtside
      rw [hsame]
      exact h.frame l hl
  · -- the directory was removed with all that was left in it
    have hentry : ∀ l, (t.removeBelow s.place).entryAt? l =
        if s.place <+: l then none else t.entryAt? l := by
      intro l
      rw [FileTree.entryAt?_removeBelow]
      by_cases hbelow : s.place <+: l
      · have hl : l ≠ [] := by
          rintro rfl
          exact hplace (List.prefix_nil.mp hbelow)
        rw [if_pos ⟨hbelow, hl⟩, if_pos hbelow]
      · rw [if_neg fun hand => hbelow hand.1, if_neg hbelow]
    rw [hfiles]
    refine ⟨fun _ => ?_, fun _ _ _ l hbelow => ?_, fun l hl => ?_⟩
    · rw [hentry, if_pos (List.prefix_refl _)]
      refine ⟨nofun, fun ⟨_, hwhy⟩ => ?_⟩
      rcases hwhy with hlost | hstuck
      · exact absurd hlocate hlost
      · exact absurd hstuck hsticks
    · rw [hentry, if_pos hbelow]
    · have houtside := hl.resolve_left hmade
      rw [hentry, if_neg houtside, hemptied.outside houtside]
      exact h.frame l hl

end Site

/-! ## Builds -/

namespace Builder

/-- The world in which a build starts to clean up; there is none if the request
    is refused before. -/
def cleaning? (b : Builder) (r : Request) (w : World) : Option World :=
  match (b.furnish r).run w with
  | (.ok (layout, tools), u) => some ((noteFailure (b.buildArtifacts r layout tools)).run
      { u with scratch := { label := "aotc-", parent := b.scratchParent } }).2
  | (.error _, _) => none

/-- Where a build works: its scratch directory, the place of the directory, and what
    the request lets it make. -/
def site (b : Builder) (r : Request) (directory : Path) (place : Location) : Site where
  directory
  place
  IsOutput := r.Output (r.layout b.toolchain)

/-- The files that a run leaves are those of its cleaning, if it gets there. -/
theorem files_run (b : Builder) (r : Request) (w : World) :
    ((b.run r).run w).2.files = match b.cleaning? r w with
      | none => w.files
      | some c => (Build.cleanUp.run c).2.files := by
  unfold cleaning?
  rw [run_eq, run_bind]
  rcases hbegun : (b.furnish r).run w with ⟨failure | ⟨layout, tools⟩, u⟩
  · exact ((b.still_furnish r).alike hbegun).files
  · dsimp only
    have hopened : (Build.openScratch b.scratchParent "aotc-").run u
        = (.ok (), { u with scratch := { label := "aotc-", parent := b.scratchParent } }) := rfl
    rw [run_bind_ok hopened, run_bind, Build.run_ensuring]
    rcases Build.cleanUp.run _ with ⟨failure | _, v⟩
    · rfl
    · dsimp only
      rcases ((noteFailure (b.buildArtifacts r layout tools)).run _).1 with failure | artifacts
      · rfl
      · rfl

/-- The cleaning starts in the world that the work has left. -/
theorem Worked.cleaning {b : Builder} {r : Request} {w v : World} {tools : ToolPaths}
    {answer : Except Failure (List Path)} (h : b.Worked r w tools answer v) :
    b.cleaning? r w = some (v.noting answer) := by
  have hwork := h.work
  unfold begun at hwork
  unfold cleaning?
  rw [run_furnish, h.check]
  dsimp only
  rw [h.find]
  dsimp only
  rw [run_noteFailure, hwork]

/-- The files that a run leaves are those that cleaning up behind its work leaves. -/
theorem Worked.files_run {b : Builder} {r : Request} {w v : World} {tools : ToolPaths}
    {answer : Except Failure (List Path)} (h : b.Worked r w tools answer v) :
    ((b.run r).run w).2.files = (Build.cleanUp.run v).2.files := by
  rw [b.files_run, h.cleaning]
  dsimp only
  rw [Build.files_cleanUp, Build.files_cleanUp]
  rcases answer with (p | f) | artifacts <;> rfl

/-- The cleaning starts behind the work, and the work in a world like the one that the
    build has found, with a session of its own. -/
theorem exists_of_cleaning {b : Builder} {r : Request} {w c : World}
    (h : b.cleaning? r w = some c) : ∃ tools u, World.Alike w u ∧
      c = ((noteFailure (b.buildArtifacts r (r.layout b.toolchain) tools)).run
        { u with scratch := { label := "aotc-", parent := b.scratchParent } }).2 := by
  unfold cleaning? at h
  rcases hbegun : (b.furnish r).run w with ⟨failure | ⟨layout, tools⟩, u⟩
  · rw [hbegun] at h
    exact nomatch h
  · rw [hbegun] at h
    obtain ⟨-, rfl⟩ := furnish_ok hbegun
    exact ⟨tools, u, (b.still_furnish r).alike hbegun, (Option.some.inj h).symm⟩

/-- **The work of a build** has halted in a world in which everything outside the
    scratch directory is accounted for. -/
theorem halted_of_cleaning {b : Builder} {r : Request} {w c : World} {d : Path} {place : Location}
    (h : b.cleaning? r w = some c) (hfits : c.WorksIn d)
    (hsound : Site.Sound b.host (b.site r d place)) (hsteady : Steady d place w.files)
    (hextension : '/' ∉ b.toolchain.objectExtension.toList) :
    ∃ u, u.files = w.files ∧ u.exchanges = w.exchanges ∧
      Site.Halted b.host (b.site r d place) u c := by
  obtain ⟨tools, u, halike, rfl⟩ := exists_of_cleaning h
  have hkeeps : Site.Keeps b.host (b.site r d place)
      (noteFailure (b.buildArtifacts r (r.layout b.toolchain) tools)) := by
    refine keeps_noteFailure (keeps_buildArtifacts hsound ?_ (fun _ hp => hp) tools)
    rw [r.objectExtension_layout]
    exact hextension
  have hready : (b.site r d place).Ready
      { u with scratch := { label := "aotc-", parent := b.scratchParent } } :=
    ⟨⟨nofun, nofun⟩, halike.files ▸ hsteady⟩
  exact ⟨{ u with scratch := { label := "aotc-", parent := b.scratchParent } }, halike.files,
    halike.exchanges, (hkeeps.keepsFrom _ hready).halted hfits⟩

/-- The session of a build has no directory yet when it opens, and the one it makes
    has a number that was not tried before. -/
theorem directory_of_cleaning {b : Builder} {r : Request} {w c : World} {d : Path}
    (h : b.cleaning? r w = some c) (hmade : c.scratch.directory = some d) :
    ∃ n, w.scratchDirectories < n ∧
      d = .ofString (Scratch.directoryText (b.scratchParent.getD w.temporary) "aotc-" n) := by
  obtain ⟨tools, u, halike, rfl⟩ := exists_of_cleaning h
  have hstays := stays_noteFailure (b.stays_buildArtifacts r (r.layout b.toolchain) tools)
    { u with scratch := { label := "aotc-", parent := b.scratchParent } }
  obtain hstanding | hnew := hstays.made d hmade
  · exact nomatch hstanding
  · rw [← halike.scratchDirectories, ← halike.temporary]
    exact hnew

end Builder

/-- **A build cleans up** however it ends.  One that is refused before its scratch
    session has changed no file.  The scratch directory of any other one has a number
    that was not tried before, and stands afterwards exactly if it stood when the
    removal of its files failed; and if tools leave the way to it steady, that is if
    one of the files sticks, and all else is as it was but for what tools did and for
    the outputs. -/
theorem run_cleans_up (b : Builder) (r : Request) (w : World) :
    match b.cleaning? r w with
    | none => ((b.run r).run w).2.files = w.files
    | some c =>
      (∀ d, c.scratch.directory = some d →
        (∃ n, w.scratchDirectories < n ∧
          d = .ofString (Scratch.directoryText (b.scratchParent.getD w.temporary) "aotc-" n)) ∧
        (((b.run r).run w).2.files.HoldsDirectory d ↔ ∃ fault t,
          (c.scratch.files.forM Disk.removeIfPresent).run c.files = (.error fault, t) ∧
            t.HoldsDirectory d)) ∧
      ∀ d place, (∀ made, c.scratch.directory = some made → made = d) →
        Site.Sound b.host (b.site r d place) → Steady d place w.files →
        '/' ∉ b.toolchain.objectExtension.toList →
        Site.CleanedUp b.host (b.site r d place) w c ((b.run r).run w).2.files := by
  rw [b.files_run r w]
  rcases hcleaning : b.cleaning? r w with _ | c
  · rfl
  · dsimp only
    refine ⟨fun d hmade => ⟨Builder.directory_of_cleaning hcleaning hmade,
      Build.holdsDirectory_cleanUp_iff hmade⟩, fun d place hmade hsound hsteady hextension => ?_⟩
    obtain ⟨u, hfiles, hexchanges, hhalted⟩ :=
      Builder.halted_of_cleaning hcleaning hmade hsound hsteady hextension
    have hcleaned := hhalted.cleanedUp
    refine ⟨hcleaned.left_iff, hcleaned.gone, fun l hl => ?_⟩
    rw [← hfiles]
    -- the account starts behind the first records, where no call has been made yet
    rcases hcleaned.frame l hl with hsame | haccounted | hway
    · exact .inl hsame
    · exact .inr (.inl (haccounted.mono (prefix_of_eq hexchanges.symm) (List.prefix_refl _)))
    · exact .inr (.inr hway)

/-- A front end that fails, and that leaves a directory where its bitcode was to
    be. -/
def clumsyBuilder : Builder where
  host := { tools := fun _ c files => match c.stage with
    | .frontend => (.exited 1 "",
        files.put ["w", "tmp", "aotc-00000001", "a-x86_64-000000000001.bc"] .directory)
    | _ => (.exited 0 "", files) }
  locator := .fixed ⟨.ofString "macruby", .ofString "llc", .ofString "clang", .ofString "lipo",
    .ofString "nm", .ofString "strip"⟩

/-- A request for the object of one source. -/
def objectRequest : Request where
  kind := .object
  inputs := [.ofString "a.rb"]
  output := some (.ofString "out.o")
  archs := [.x86_64]
  sdk := none
  frameworks := []
  linkerFlags := []
  static := false
  verbose := false
  jobs := 1

/-- Its scratch directory. -/
def clumsyDirectory : Path := .ofString "tmp/aotc-00000001"

/-- The place of its scratch directory. -/
def clumsyPlace : Location := ["w", "tmp", "aotc-00000001"]

private theorem clumsy_sound :
    Site.Sound clumsyBuilder.host
      (clumsyBuilder.site objectRequest clumsyDirectory clumsyPlace) := by
  refine ⟨fun n => Text.slash_not_mem_hex 12 n, fun history c files hsteady => ?_⟩
  unfold clumsyBuilder
  dsimp only
  split
  · exact hsteady.of_spares (files.spares_put (List.prefix_append _ _) (List.cons_ne_nil _ _) rfl)
  · exact hsteady

private theorem clumsy_leads :
    ((mixedWorld.files.removeBelow clumsyPlace).locate .entry clumsyDirectory).toOption
      = some clumsyPlace := by
  decide +kernel

private theorem clumsy_steady : Steady clumsyDirectory clumsyPlace mixedWorld.files := by
  have hentries : ∀ entry ∈ mixedWorld.files.entries, entry.2.isLink = false := by decide +kernel
  refine ⟨eq_ok_of_toOption clumsy_leads, fun l _ e he => ?_⟩
  unfold FileTree.entryAt? at he
  split at he
  · rw [← Option.some.inj he]
    rfl
  · obtain ⟨before, after, heq, -⟩ := List.lookup_eq_some_iff.mp he
    refine hentries (l, e) ?_
    rw [heq]
    exact List.mem_append_right _ List.mem_cons_self

private theorem clumsy_cleaning :
    (clumsyBuilder.cleaning? objectRequest mixedWorld).map (fun c =>
        (c.scratch.directory, (c.files.locate .entry clumsyDirectory).toOption))
      = some (some clumsyDirectory, some clumsyPlace) := by
  decide +kernel

private theorem clumsy_left :
    ((clumsyBuilder.run objectRequest).run mixedWorld).2.files.entryAt? clumsyPlace
      = some .directory := by
  decide +kernel

/-- The directory that the front end left sticks, and so the scratch directory is
    left. -/
theorem run_cleans_up_clumsy :
    ∃ c, clumsyBuilder.cleaning? objectRequest mixedWorld = some c ∧
      c.scratch.directory = some clumsyDirectory ∧
      ((clumsyBuilder.run objectRequest).run mixedWorld).2.files.entryAt? clumsyPlace
        = some .directory ∧
      (∃ f ∈ c.scratch.files, c.files.Sticks clumsyPlace f) ∧
      Site.CleanedUp clumsyBuilder.host
        (clumsyBuilder.site objectRequest clumsyDirectory clumsyPlace)
        mixedWorld c ((clumsyBuilder.run objectRequest).run mixedWorld).2.files := by
  have hcleans := run_cleans_up clumsyBuilder objectRequest mixedWorld
  have hfacts := clumsy_cleaning
  rcases hcleaning : clumsyBuilder.cleaning? objectRequest mixedWorld with _ | c
  · rw [hcleaning] at hfacts
    exact nomatch hfacts
  · rw [hcleaning] at hcleans hfacts
    obtain ⟨hmade, hlocate⟩ := Prod.mk.inj (Option.some.inj hfacts)
    have hfits : ∀ made, c.scratch.directory = some made → made = clumsyDirectory :=
      fun made h => Option.some.inj (h.symm.trans hmade)
    have hcleaned := hcleans.2 clumsyDirectory clumsyPlace hfits clumsy_sound clumsy_steady
      (by decide)
    have hsome : c.scratch.directory ≠ none := by
      rw [hmade]
      exact nofun
    obtain ⟨-, hlost | hsticks⟩ := (hcleaned.left_iff hsome).mp clumsy_left
    · exact absurd (eq_ok_of_toOption hlocate) hlost
    · exact ⟨c, rfl, hmade, clumsy_left, hsticks, hcleaned⟩

end AheadOfTime
