import AheadOfTime.Proofs.Cleaning
import AheadOfTime.Proofs.Session

/-! # What becomes of a scratch directory

    The end of a session removes the files that it has handed out, in this order, and
    then the directory with whatever is left in it: what others have put beside the
    files, and links.  The first file that sticks stops that.
    `session_disposed_of` says what is left then: the directory and all in it but the
    files that came before; and the session has forgotten all of it, so that no later
    cleaning makes up for it. -/

namespace AheadOfTime

namespace FileTree

variable {t : FileTree} {d f : Path} {l₀ l : Location}

/-! ## Taking away the files one by one -/

/-- A directory stands at the location, and the path leads to it on a way that lies
    outside of it. -/
structure LeadsTo (t : FileTree) (d : Path) (l₀ : Location) : Prop where
  leads : (t.removeBelow l₀).locate .entry d = .ok l₀
  stands : t.entryAt? l₀ = some .directory
  notRoot : l₀ ≠ []

/-- The tree without what stands under the names of the files at the location. -/
def without (t : FileTree) (l₀ : Location) (files : List Path) : FileTree :=
  files.foldl (fun t f => t.remove (l₀ ++ [f.name])) t

/-- What is removed with a directory need not be removed before. -/
theorem removeBelow_remove (t : FileTree) (h : l₀ <+: l) :
    (t.remove l).removeBelow l₀ = t.removeBelow l₀ := by
  unfold remove removeBelow
  dsimp only
  rw [List.filter_filter]
  have hsame : ∀ entry : Location × Entry,
      (!l₀.isPrefixOf entry.1 && decide (entry.1 ≠ l)) = !l₀.isPrefixOf entry.1 := by
    intro entry
    by_cases hentry : entry.1 = l
    · rw [hentry, List.isPrefixOf_iff_prefix.mpr h]
      rfl
    · rw [decide_eq_true hentry, Bool.and_true]
  rw [funext hsame]

/-- What is removed with a directory may have been removed before. -/
theorem removeBelow_without (t : FileTree) (l₀ : Location) (files : List Path) :
    (t.without l₀ files).removeBelow l₀ = t.removeBelow l₀ := by
  induction files generalizing t with
  | nil => rfl
  | cons f later ih => exact (ih _).trans (t.removeBelow_remove (List.prefix_append _ _))

/-- Nothing else is missing. -/
theorem entryAt?_without (t : FileTree) (l₀ l : Location) (files : List Path) :
    (t.without l₀ files).entryAt? l =
      if ∃ f ∈ files, l = l₀ ++ [f.name] then none else t.entryAt? l := by
  induction files generalizing t with
  | nil =>
      rw [if_neg fun ⟨_, hf, _⟩ => nomatch hf]
      rfl
  | cons f later ih =>
      refine (ih _).trans ?_
      rw [entryAt?_remove]
      by_cases hlater : ∃ g ∈ later, l = l₀ ++ [g.name]
      · obtain ⟨g, hg, hsame⟩ := hlater
        rw [if_pos ⟨g, hg, hsame⟩, if_pos ⟨g, List.mem_cons_of_mem f hg, hsame⟩]
      · rw [if_neg hlater]
        by_cases hfirst : l = l₀ ++ [f.name]
        · rw [if_pos ⟨hfirst, by simp⟩, if_pos ⟨f, List.mem_cons_self, hfirst⟩]
        · rw [if_neg fun hand => hfirst hand.1, if_neg]
          rintro ⟨g, hg, hsame⟩
          rcases List.mem_cons.mp hg with rfl | hg
          · exact hfirst hsame
          · exact hlater ⟨g, hg, hsame⟩

namespace LeadsTo

/-- The path leads there with the directory in its place as well. -/
theorem locate_eq (h : LeadsTo t d l₀) : t.locate .entry d = .ok l₀ :=
  locate_of_removeBelow h.leads

/-- The way does not lead through a file of the directory. -/
theorem remove (h : LeadsTo t d l₀) (name : String) : LeadsTo (t.remove (l₀ ++ [name])) d l₀ := by
  refine ⟨?_, ?_, h.notRoot⟩
  · rw [t.removeBelow_remove (List.prefix_append _ _)]
    exact h.leads
  · rw [entryAt?_remove, if_neg fun hand => by simpa using hand.1]
    exact h.stands

theorem without (h : LeadsTo t d l₀) (files : List Path) : LeadsTo (t.without l₀ files) d l₀ := by
  induction files generalizing t with
  | nil => exact h
  | cons f later ih => exact ih (h.remove f.name)

end LeadsTo

/-- A file sticks whether or not another one has been removed that did not. -/
theorem sticks_remove_iff (h : ¬ t.Sticks l₀ f) (g : Path) :
    (t.remove (l₀ ++ [f.name])).Sticks l₀ g ↔ t.Sticks l₀ g := by
  have hentry : (t.remove (l₀ ++ [f.name])).entryAt? (l₀ ++ [g.name]) = some .directory ↔
      t.entryAt? (l₀ ++ [g.name]) = some .directory := by
    rw [entryAt?_remove]
    by_cases hsame : l₀ ++ [g.name] = l₀ ++ [f.name]
    · rw [if_pos ⟨hsame, by simp⟩, hsame]
      exact iff_of_false nofun fun hdirectory => h (.inr (.inr (.inr hdirectory)))
    · rw [if_neg fun hand => hsame hand.1]
  unfold Sticks
  rw [hentry]

end FileTree

namespace Disk

open FileTree (LeadsTo)

variable {t : FileTree} {d f : Path} {l₀ : Location} {files : List Path}

/-- **Files that do not stick** are all removed. -/
theorem run_forM_of_none_sticks (h : t.LeadsTo d l₀) (hfiles : ∀ f ∈ files, d.IsScratch f)
    (hnone : ∀ f ∈ files, ¬ t.Sticks l₀ f) :
    (files.forM removeIfPresent).run t = (.ok (), t.without l₀ files) := by
  induction files generalizing t with
  | nil => rfl
  | cons f later ih =>
      obtain ⟨hf, hlater⟩ := List.forall_mem_cons.mp hfiles
      obtain ⟨hsticks, hnone⟩ := List.forall_mem_cons.mp hnone
      rw [run_forM_cons, removeIfPresent_of_not_sticks h.locate_eq h.stands hf hsticks]
      exact ih (h.remove f.name) hlater fun g hg hstuck =>
        hnone g hg ((FileTree.sticks_remove_iff hsticks g).mp hstuck)

/-- **The first file that sticks** stops the removal behind the files before it. -/
theorem run_forM_of_sticks {before : List Path} (h : t.LeadsTo d l₀)
    (hfiles : ∀ g ∈ before, d.IsScratch g) (hnone : ∀ g ∈ before, ¬ t.Sticks l₀ g)
    (hf : d.IsScratch f) (hsticks : t.Sticks l₀ f) (later : List Path) :
    ∃ fault, ((before ++ f :: later).forM removeIfPresent).run t
      = (.error fault, t.without l₀ before) := by
  induction before generalizing t with
  | nil =>
      obtain ⟨fault, hrun⟩ := removeIfPresent_of_sticks h.locate_eq h.stands hf hsticks
      refine ⟨fault, ?_⟩
      rw [List.nil_append, run_forM_cons, hrun]
      rfl
  | cons g before ih =>
      obtain ⟨hg, hfiles⟩ := List.forall_mem_cons.mp hfiles
      obtain ⟨hloose, hnone⟩ := List.forall_mem_cons.mp hnone
      rw [List.cons_append, run_forM_cons,
        removeIfPresent_of_not_sticks h.locate_eq h.stands hg hloose]
      exact ih (h.remove g.name) hfiles
        (fun g' hg' hstuck => hnone g' hg' ((FileTree.sticks_remove_iff hloose g').mp hstuck))
        ((FileTree.sticks_remove_iff hloose f).mpr hsticks)

end Disk

/-! ## What a session holds -/

namespace Scratch

open FileTree (LeadsTo)

variable {host : Host} {w : World} {events : List Event} {e : Event} {m : Moment}

/-- A session has a directory if it has files, and they lie in it. -/
structure IsTidy (s : Scratch) : Prop where
  unmade : s.directory = none → s.files = []
  made : ∀ d, s.directory = some d → s.files ≠ [] ∧ ∀ f ∈ s.files, d.IsScratch f

/-- A session that has made nothing is tidy. -/
theorem isTidy_of_none {s : Scratch} (hdirectory : s.directory = none) (hfiles : s.files = []) :
    s.IsTidy :=
  ⟨fun _ => hfiles, fun _ hd => nomatch hdirectory.symm.trans hd⟩

/-- A session that is over has nothing left. -/
theorem IsOver.isTidy {s : Scratch} (h : s.IsOver) : s.IsTidy :=
  isTidy_of_none h.directory h.files

/-- A file more, in the directory that the session has, or that it has now. -/
theorem IsTidy.handOut {s : Scratch} {d path : Path} (h : s.IsTidy) (hpath : d.IsScratch path)
    (hd : ∀ d', s.directory = some d' → d' = d) :
    IsTidy { s with directory := some d, files := s.files ++ [path] } := by
  refine ⟨nofun, fun d' hd' => ?_⟩
  rw [← Option.some.inj hd']
  refine ⟨List.append_ne_nil_of_right_ne_nil _ (List.cons_ne_nil _ _),
    List.forall_mem_append.mpr ⟨fun f hf => ?_, List.forall_mem_singleton.mpr hpath⟩⟩
  rcases hdirectory : s.directory with _ | d''
  · rw [h.unmade hdirectory] at hf
    exact nomatch hf
  · rw [← hd d'' hdirectory]
    exact (h.made d'' hdirectory).2 f hf

/-- **Every event** leaves the session tidy. -/
theorem isTidy_moment (h : w.scratch.IsTidy) (hids : ∀ n, '/' ∉ (host.scratchId n).toList)
    (hplain : ∀ stem extension, e = .allocate stem extension → '/' ∉ extension.toList) :
    (e.moment host w).after.scratch.IsTidy := by
  cases e with
  | allocate stem extension =>
      have hways := Build.allocates host stem extension w
      rw [moment_allocate]
      generalize (Build.allocate host stem extension).run w = outcome at hways ⊢
      have hfile : ∀ d n, Path.IsScratch d (filePath host d n stem extension) := fun d n =>
        isScratch_fileName d stem (hids n) (hplain stem extension rfl)
      cases hways with
      | closed _ => exact h
      | refused _ _ _ => exact h
      | first l path _ hnone _ _ hpath =>
          exact h.handOut (hpath ▸ hfile _ _) fun d hd => nomatch hnone.symm.trans hd
      | next d path _ hd hpath =>
          have htidy := h.handOut (hpath ▸ hfile d _)
            fun d' hd' => Option.some.inj (hd'.symm.trans hd)
          rw [← hd] at htidy
          exact htidy
  | enter => exact h
  | meanwhile files => exact h
  | exit => exact (isOver_of_ends .exit host w).isTidy
  | cleanUp => exact (isOver_of_ends .cleanUp host w).isTidy

/-- **A session stays tidy** through any course of events. -/
theorem isTidy_course (h : w.scratch.IsTidy) (hids : ∀ n, '/' ∉ (host.scratchId n).toList)
    (hplain : ∀ stem extension, .allocate stem extension ∈ events → '/' ∉ extension.toList) :
    (w.behind (course host events w)).scratch.IsTidy := by
  induction events generalizing w with
  | nil => exact h
  | cons e events ih =>
      refine ih (isTidy_moment h hids ?_) fun stem extension hin =>
        hplain stem extension (List.mem_cons_of_mem e hin)
      rintro stem extension rfl
      exact hplain stem extension List.mem_cons_self

/-! ## The end of a session -/

/-- Nothing stuck: what the session has handed out and everything else in its
    directory is gone, and nothing else is. -/
structure Moment.Clears (m : Moment) (l₀ : Location) : Prop where
  answer : m.answer = .ok none
  gone : ∀ l, l₀ <+: l → m.after.files.entryAt? l = none
  kept : ∀ l, ¬ l₀ <+: l → m.after.files.entryAt? l = m.before.files.entryAt? l

/-- The cleaning stopped behind these files: they are gone, and nothing else is. -/
structure Moment.StopsBehind (m : Moment) (l₀ : Location) (removed : List Path) : Prop where
  answer : ∃ fault, m.answer = .error (.fault fault)
  gone : ∀ f ∈ removed, m.after.files.entryAt? (l₀ ++ [f.name]) = none
  kept : ∀ l, (∀ f ∈ removed, l ≠ l₀ ++ [f.name]) →
    m.after.files.entryAt? l = m.before.files.entryAt? l

/-- What the end of a session leaves behind. -/
structure Disposal (host : Host) (m : Moment) : Prop where
  /-- Nothing was made, and nothing is done. -/
  unmade : m.before.scratch.directory = none →
    m.answer = .ok none ∧ m.after.files = m.before.files
  /-- Wherever its path may lead: the directory is left exactly if it stood when the
      removal of the files failed. -/
  left_iff : ∀ d, m.before.scratch.directory = some d →
    (m.after.files.HoldsDirectory d ↔ ∃ fault t,
      (m.before.scratch.files.forM Disk.removeIfPresent).run m.before.files = (.error fault, t) ∧
        t.HoldsDirectory d)
  /-- If the path leads there, that is if one of the files sticks. -/
  stands_iff : ∀ d l₀, m.before.scratch.directory = some d → m.before.files.LeadsTo d l₀ →
    (m.after.files.entryAt? l₀ = some .directory ↔
      ∃ f ∈ m.before.scratch.files, m.before.files.Sticks l₀ f)
  clears : ∀ d l₀, m.before.scratch.directory = some d → m.before.files.LeadsTo d l₀ →
    (∀ f ∈ m.before.scratch.files, ¬ m.before.files.Sticks l₀ f) → m.Clears l₀
  /-- One file that sticks keeps all that come behind it. -/
  stops : ∀ d l₀ removed f later, m.before.scratch.directory = some d →
    m.before.files.LeadsTo d l₀ → m.before.scratch.files = removed ++ f :: later →
    (∀ g ∈ removed, ¬ m.before.files.Sticks l₀ g) → m.before.files.Sticks l₀ f →
    m.StopsBehind l₀ removed
  /-- All that is left is forgotten, and cleaning up once more does nothing. -/
  forgets : m.after.scratch.IsOver ∧ ∀ e : Event, e.Ends →
    e.moment host m.after = ⟨e, m.after, .ok none, m.after⟩

/-- The path of a directory whose files do not stick can be given to the system. -/
theorem IsTidy.holdsNul_eq_false {s : Scratch} {d : Path} {t : FileTree} {l₀ : Location}
    (h : s.IsTidy) (hd : s.directory = some d) (hnone : ∀ f ∈ s.files, ¬ t.Sticks l₀ f) :
    FileTree.holdsNul d = false := by
  -- a NUL in the directory would be one in each of its files
  obtain ⟨hne, hfiles⟩ := h.made d hd
  obtain ⟨f, hf⟩ := List.exists_mem_of_ne_nil _ hne
  obtain ⟨name, -, -, hname⟩ := hfiles f hf
  rw [← Bool.not_eq_true]
  intro hnul
  refine hnone f hf (.inl ?_)
  rw [hname]
  unfold FileTree.holdsNul at hnul ⊢
  rw [List.any_append, hnul, Bool.true_or]

/-- **Where nothing sticks**, the end of a session clears its directory. -/
theorem moment_clears (htidy : w.scratch.IsTidy) (hends : e.Ends) (host : Host) {d : Path}
    {l₀ : Location} (hd : w.scratch.directory = some d) (hleads : w.files.LeadsTo d l₀)
    (hnone : ∀ f ∈ w.scratch.files, ¬ w.files.Sticks l₀ f) : (e.moment host w).Clears l₀ := by
  have hfiles := (htidy.made d hd).2
  have hrun := Disk.run_forM_of_none_sticks hleads hfiles hnone
  have hleads' := hleads.without w.scratch.files
  have hafter : (e.moment host w).after.files = w.files.removeBelow l₀ := by
    rw [moment_of_ends hends]
    dsimp only
    rw [Build.files_cleanUp, hrun, hd]
    dsimp only
    rw [Disk.run_removeTree, htidy.holdsNul_eq_false hd hnone, hleads'.locate_eq]
    dsimp only
    rw [if_neg (by decide), if_pos hleads'.stands, FileTree.removeBelow_without]
  refine ⟨?_, fun l hl => ?_, fun l hl => ?_⟩
  · rw [moment_of_ends hends, Build.answer_cleanUp, hrun]
    rfl
  · rw [hafter, FileTree.entryAt?_removeBelow, if_pos]
    refine ⟨hl, ?_⟩
    rintro rfl
    exact hleads.notRoot (List.prefix_nil.mp hl)
  · rw [hafter, FileTree.entryAt?_removeBelow, if_neg fun hand => hl hand.1]
    rfl

/-- **Where a file sticks**, the end of a session stops behind those before it. -/
theorem moment_stopsBehind (htidy : w.scratch.IsTidy) (hends : e.Ends) (host : Host) {d f : Path}
    {l₀ : Location} {removed later : List Path} (hd : w.scratch.directory = some d)
    (hleads : w.files.LeadsTo d l₀) (hsplit : w.scratch.files = removed ++ f :: later)
    (hnone : ∀ g ∈ removed, ¬ w.files.Sticks l₀ g) (hsticks : w.files.Sticks l₀ f) :
    (e.moment host w).StopsBehind l₀ removed := by
  have hfiles := (htidy.made d hd).2
  rw [hsplit] at hfiles
  obtain ⟨hremoved, hfiles⟩ := List.forall_mem_append.mp hfiles
  obtain ⟨fault, hrun⟩ := Disk.run_forM_of_sticks hleads hremoved hnone
    (hfiles f List.mem_cons_self) hsticks later
  have hafter : (e.moment host w).after.files = w.files.without l₀ removed := by
    rw [moment_of_ends hends]
    dsimp only
    rw [Build.files_cleanUp, hsplit, hrun]
  refine ⟨⟨fault, ?_⟩, fun g hg => ?_, fun l hl => ?_⟩
  · rw [moment_of_ends hends, Build.answer_cleanUp, hsplit, hrun]
    rfl
  · rw [hafter, FileTree.entryAt?_without, if_pos ⟨g, hg, rfl⟩]
  · rw [hafter, FileTree.entryAt?_without, if_neg fun ⟨g, hg, hsame⟩ => hl g hg hsame]
    rfl

/-- The first file that sticks. -/
theorem exists_first_sticks {t : FileTree} {l₀ : Location} {files : List Path}
    (h : ∃ f ∈ files, t.Sticks l₀ f) : ∃ removed f later, files = removed ++ f :: later ∧
      (∀ g ∈ removed, ¬ t.Sticks l₀ g) ∧ t.Sticks l₀ f := by
  induction files with
  | nil =>
      obtain ⟨f, hf, -⟩ := h
      exact nomatch hf
  | cons f later ih =>
      by_cases hf : t.Sticks l₀ f
      · exact ⟨[], f, later, rfl, List.forall_mem_nil _, hf⟩
      · obtain ⟨g, hg, hsticks⟩ := h
        have hlater : g ∈ later := by
          rcases List.mem_cons.mp hg with rfl | hlater
          · exact absurd hsticks hf
          · exact hlater
        obtain ⟨removed, f', later', rfl, hnone, hfirst⟩ := ih ⟨g, hlater, hsticks⟩
        exact ⟨f :: removed, f', later', rfl, List.forall_mem_cons.mpr ⟨hf, hnone⟩, hfirst⟩

/-- **Any end** of a tidy session disposes of what it holds. -/
theorem disposal_of_isTidy (htidy : w.scratch.IsTidy) (hends : e.Ends) :
    Disposal host (e.moment host w) where
  unmade hnone := by
    change w.scratch.directory = none at hnone
    have hanswer := Build.answer_cleanUp w
    have hafter := Build.files_cleanUp w
    rw [htidy.unmade hnone] at hanswer hafter
    rw [hnone] at hafter
    rw [moment_of_ends hends]
    exact ⟨congrArg (Except.map fun _ => none) hanswer, hafter⟩
  left_iff d hd := by
    rw [moment_of_ends hends] at hd ⊢
    exact Build.holdsDirectory_cleanUp_iff hd
  stands_iff d l₀ hd hleads := by
    constructor
    · intro hstands
      by_contra hnone
      have hcleared := moment_clears htidy hends host hd hleads
        fun f hf hsticks => hnone ⟨f, hf, hsticks⟩
      exact nomatch hstands.symm.trans (hcleared.gone l₀ (List.prefix_refl _))
    · intro hsome
      obtain ⟨removed, f, later, hsplit, hnone, hsticks⟩ := exists_first_sticks hsome
      have hstopped := moment_stopsBehind htidy hends host hd hleads hsplit hnone hsticks
      exact (hstopped.kept l₀ fun g _ => by simp).trans hleads.stands
  clears d l₀ hd hleads hnone := moment_clears htidy hends host hd hleads hnone
  stops d l₀ removed f later hd hleads hsplit hnone hsticks :=
    moment_stopsBehind htidy hends host hd hleads hsplit hnone hsticks
  forgets := by
    have hover := isOver_of_ends hends host w
    refine ⟨hover, fun e' hends' => ?_⟩
    rw [moment_of_ends hends', Build.cleanUp_of_isOver hover]
    rfl

/-- **A session is disposed of** as `Disposal` says, whatever was asked of it and whatever
    has become of its files: without remains if no file sticks, while one that does
    leaves the directory behind, with all the files from that one on. -/
theorem session_disposed_of (host : Host) (events : List Event) (w : World) (e : Event)
    (hnew : w.scratch.IsNew) (hids : ∀ n, '/' ∉ (host.scratchId n).toList)
    (hplain : ∀ stem extension, .allocate stem extension ∈ events → '/' ∉ extension.toList)
    (hends : e.Ends) : Disposal host (e.moment host (w.behind (course host events w))) :=
  disposal_of_isTidy (isTidy_course (isTidy_of_none hnew.directory hnew.files) hids hplain) hends

/-- The place of the first scratch directory. -/
def sessionPlace : Location := ["w", "tmp", "aotc-00000001"]

/-- Two files are asked for, and a tool makes a directory at the path of the first one,
    and writes the second one. -/
def clumsyEvents : List Event :=
  [.allocate "a" ".o", .allocate "b" ".o", .meanwhile
    ((sessionWorld.files.put sessionPlace .directory).put
      (sessionPlace ++ ["a-000000000001.o"]) .directory |>.put
      (sessionPlace ++ ["b-000000000002.o"]) (.file [] false))]

theorem session_disposed_of_clumsy :
    let v := sessionWorld.behind (course restingHost clumsyEvents sessionWorld)
    v.files.LeadsTo (.ofString "tmp/aotc-00000001") sessionPlace ∧
      (Event.exit.moment restingHost v).StopsBehind sessionPlace [] ∧
      (Event.exit.moment restingHost v).after.files.entryAt? sessionPlace = some .directory ∧
      (Event.exit.moment restingHost v).after.files.entryAt?
        (sessionPlace ++ ["b-000000000002.o"]) = some (.file [] false) ∧
      (Event.exit.moment restingHost v).after.scratch.IsOver := by
  intro v
  have hdisposal : Disposal restingHost (Event.exit.moment restingHost v) := by
    refine session_disposed_of restingHost clumsyEvents sessionWorld .exit ⟨rfl, rfl, rfl⟩
      (Text.slash_not_mem_hex 12) (fun stem extension hin => ?_) .exit
    simp only [clumsyEvents, List.mem_cons, List.not_mem_nil, or_false, reduceCtorEq,
      Event.allocate.injEq] at hin
    rcases hin with ⟨-, rfl⟩ | ⟨-, rfl⟩ <;> decide
  have hdirectory : v.scratch.directory = some (.ofString "tmp/aotc-00000001") := by
    decide +kernel
  have hfiles : v.scratch.files = [] ++ .ofString "tmp/aotc-00000001/a-000000000001.o" ::
      [.ofString "tmp/aotc-00000001/b-000000000002.o"] := by
    decide +kernel
  have hleads : v.files.LeadsTo (.ofString "tmp/aotc-00000001") sessionPlace :=
    ⟨eq_ok_of_toOption (by decide +kernel), by decide +kernel, List.cons_ne_nil _ _⟩
  have hsticks : v.files.Sticks sessionPlace (.ofString "tmp/aotc-00000001/a-000000000001.o") :=
    .inr (.inr (.inr (by decide +kernel)))
  have hstops := hdisposal.stops _ sessionPlace [] _ _ hdirectory hleads hfiles
    (List.forall_mem_nil _) hsticks
  have hsecond : v.files.entryAt? (sessionPlace ++ ["b-000000000002.o"])
      = some (.file [] false) := by
    decide +kernel
  exact ⟨hleads, hstops, (hstops.kept _ (List.forall_mem_nil _)).trans hleads.stands,
    (hstops.kept _ (List.forall_mem_nil _)).trans hsecond, hdisposal.forgets.1⟩

end Scratch

end AheadOfTime
