import AheadOfTime.Proofs.Steady

/-! # Emptying a directory file by file

    A directory is emptied by removing one file after the other and then the
    directory with what is left in it.  `Disk.forM_removeIfPresent_error_iff` says
    exactly which files stop that: a name or a path that is too long, one that no
    system call takes, or a directory in the place of the file.  The order of the
    files does not matter. -/

namespace AheadOfTime

/-- The path names something directly below `d`. -/
def Path.IsScratch (d f : Path) : Prop :=
  ∃ name, ¬ (name = "" ∨ name = ".") ∧ name ≠ ".." ∧ f = ⟨d.anchor, d.parts ++ [name]⟩

namespace FileTree

variable {t t' : FileTree} {d f : Path} {l₀ l : Location}

/-! ## Walks by one more name -/

/-- The way to a directory is the first part of the way to what is in it. -/
theorem Walks.append_name {links : Nat} {here : Location} {names : List String}
    (h : Walks t .entry links here names l₀) (hdirectory : t.entryAt? l₀ = some .directory)
    (name : String) :
    ∃ links', t.walk .entry links here (names ++ [name]) = t.walk .entry links' l₀ [name] := by
  have hslash : ∀ rest : List String,
      ¬ (Aim.entry = .creation ∧ rest ≠ [] ∧ rest.all (· = "")) := by
    intro rest h
    exact absurd h.1 (by decide)
  induction h with
  | @here links here => exact ⟨links, rfl⟩
  | @stay links here l first rest hdot _ ih =>
      obtain ⟨links', heq⟩ := ih hdirectory
      refine ⟨links', ?_⟩
      rw [← heq]
      cases links <;> rw [List.cons_append, walk, walkNames] <;> exact if_pos hdot
  | @up links here l rest _ ih =>
      have hdot : ¬ (".." = "" ∨ ".." = ".") := by decide
      obtain ⟨links', heq⟩ := ih hdirectory
      refine ⟨links', ?_⟩
      rw [← heq]
      cases links <;> rw [List.cons_append, walk, walkNames, if_neg hdot] <;> exact if_pos rfl
  | @down links here l first rest hproper hentry _ ih =>
      obtain ⟨links', heq⟩ := ih hdirectory
      have hproper' : Proper .entry first (rest ++ [name]) :=
        ⟨hproper.notDot, hproper.notUp, hproper.fits, hslash _⟩
      refine ⟨links', ?_⟩
      rw [← heq]
      cases links <;> refine (walkNames_of_proper hproper' _ _).trans ?_ <;> rw [hentry, walk]
  | stop _ hend =>
      -- a walk does not stop at a directory
      rcases hend .directory hdirectory with hregular | ⟨hlink, -⟩
      · exact absurd hregular (by decide)
      · exact absurd hlink (by decide)
  | @follow links here l first target rest hproper hentry _ _ ih =>
      obtain ⟨links', heq⟩ := ih hdirectory
      have hproper' : Proper .entry first (rest ++ [name]) :=
        ⟨hproper.notDot, hproper.notUp, hproper.fits, hslash _⟩
      have hmore : ¬ (rest ++ [name] = [] ∧ Aim.TakesLinks .entry) :=
        fun h => List.append_ne_nil_of_right_ne_nil _ (List.cons_ne_nil _ _) h.1
      refine ⟨links', ?_⟩
      rw [← heq, List.cons_append, walk, walkNames_of_proper hproper', hentry]
      dsimp only
      rw [if_neg hmore, List.append_assoc]

/-- Where a name in a directory leads. -/
theorem walk_name {name : String} (hdot : ¬ (name = "" ∨ name = ".")) (hup : name ≠ "..")
    (links : Nat) (here : Location) :
    t.walk .entry links here [name] =
      if name.utf8ByteSize > nameLimit then .error .nameTooLong else .ok (here ++ [name]) := by
  by_cases hlong : name.utf8ByteSize > nameLimit
  · rw [if_pos hlong]
    cases links <;> rw [walk, walkNames, if_neg hdot, if_neg hup, if_pos hlong]
  · rw [if_neg hlong, walk_eq_ok_iff]
    have hproper : Proper .entry name [] := ⟨hdot, hup, hlong, fun h => absurd h.1 (by decide)⟩
    rcases hentry : t.entryAt? (here ++ [name]) with _ | _ | ⟨bytes, executable⟩ | target
    · refine .stop hproper fun e he => ?_
      rw [hentry] at he
      cases he
    · exact .down hproper hentry .here
    · refine .stop hproper fun e he => ?_
      rw [← Option.some.inj (hentry.symm.trans he)]
      exact .inl rfl
    · refine .stop hproper fun e he => ?_
      rw [← Option.some.inj (hentry.symm.trans he)]
      exact .inr ⟨rfl, .inl rfl⟩

/-- **Where a path leads** that goes on by one name from a directory. -/
theorem locate_child {name : String} (hdot : ¬ (name = "" ∨ name = ".")) (hup : name ≠ "..")
    (hlocate : t.locate .entry d = .ok l₀) (hdirectory : t.entryAt? l₀ = some .directory) :
    t.locate .entry ⟨d.anchor, d.parts ++ [name]⟩ =
      if (Path.mk d.anchor (d.parts ++ [name])).toString.utf8ByteSize > pathLimit ∨
          name.utf8ByteSize > nameLimit then .error .nameTooLong
      else .ok (l₀ ++ [name]) := by
  obtain ⟨-, hwalk⟩ := locate_eq_ok_iff.mp hlocate
  obtain ⟨links, heq⟩ := hwalk.append_name hdirectory name
  rw [walk_name hdot hup] at heq
  unfold locate
  by_cases hpath : (Path.mk d.anchor (d.parts ++ [name])).toString.utf8ByteSize > pathLimit
  · rw [if_pos hpath, if_pos (.inl hpath)]
  · rw [if_neg hpath]
    refine heq.trans ?_
    by_cases hname : name.utf8ByteSize > nameLimit
    · rw [if_pos hname, if_pos (.inr hname)]
    · rw [if_neg hname, if_neg (not_or.mpr ⟨hpath, hname⟩)]

/-! ## Trees with fewer files -/

/-- Nothing has changed but that files directly below a location, or further
    down, are gone. -/
structure Emptied (l₀ : Location) (t t' : FileTree) : Prop where
  workingDirectory : t'.workingDirectory = t.workingDirectory
  entries : ∀ l, t'.entryAt? l = t.entryAt? l ∨
    (t'.entryAt? l = none ∧ (l₀ <+: l ∧ l ≠ l₀) ∧
      ∃ e, t.entryAt? l = some e ∧ isRegular e = true)

namespace Emptied

theorem refl (l₀ : Location) (t : FileTree) : Emptied l₀ t t := ⟨rfl, fun _ => .inl rfl⟩

/-- What is emptied twice is emptied. -/
theorem trans {t'' : FileTree} (h : Emptied l₀ t t') (h' : Emptied l₀ t' t'') :
    Emptied l₀ t t'' := by
  refine ⟨h'.workingDirectory.trans h.workingDirectory, fun l => ?_⟩
  rcases h'.entries l with heq' | ⟨hnone, hbelow, e, he, hregular⟩
  · rw [heq']
    exact h.entries l
  · rcases h.entries l with heq | ⟨hnone', -⟩
    · exact .inr ⟨hnone, hbelow, e, heq ▸ he, hregular⟩
    · exact nomatch he.symm.trans hnone'

/-- Where a way led into a directory before, it leads there still. -/
theorem opens (h : Emptied l₀ t t') : Opens .entry t t' := by
  refine ⟨h.workingDirectory, fun l => ?_⟩
  rcases h.entries l with heq | ⟨hnone, -, e, he, hregular⟩
  · exact .inl heq
  · refine .inr ⟨fun e' he' => ?_, fun _ _ _ => .inl rfl⟩
    rw [← Option.some.inj (he.symm.trans he')]
    exact hregular

/-- A way that leads into a directory now led there before. -/
theorem opens_back (h : Emptied l₀ t t') : Opens .entry t' t := by
  refine ⟨h.workingDirectory.symm, fun l => ?_⟩
  rcases h.entries l with heq | ⟨hnone, -⟩
  · exact .inl heq.symm
  · rw [hnone]
    exact .inr ⟨nofun, fun _ _ _ => .inl rfl⟩

/-- The ways that lead somewhere are the same. -/
theorem locate_eq_ok_iff (h : Emptied l₀ t t') :
    t'.locate .entry f = .ok l ↔ t.locate .entry f = .ok l :=
  ⟨locate_of_opens h.opens_back (.inl rfl), locate_of_opens h.opens (.inl rfl)⟩

/-- The directories are the same. -/
theorem directory_iff (h : Emptied l₀ t t') (l : Location) :
    t'.entryAt? l = some .directory ↔ t.entryAt? l = some .directory := by
  rcases h.entries l with heq | ⟨hnone, -, e, he, hregular⟩
  · rw [heq]
  · rw [hnone, he]
    refine ⟨nofun, fun hdirectory => ?_⟩
    rw [Option.some.inj hdirectory] at hregular
    exact nomatch hregular

/-- Outside of the place everything is as it was. -/
theorem outside (h : Emptied l₀ t t') (hl : ¬ l₀ <+: l) : t'.entryAt? l = t.entryAt? l := by
  rcases h.entries l with heq | ⟨-, ⟨hbelow, -⟩, -⟩
  · exact heq
  · exact absurd hbelow hl

end Emptied

/-- The file cannot be removed from the directory at `l₀`: no system call takes
    its path, its path or its name is too long, or it is a directory itself. -/
def Sticks (t : FileTree) (l₀ : Location) (f : Path) : Prop :=
  holdsNul f = true ∨ f.toString.utf8ByteSize > pathLimit ∨ f.name.utf8ByteSize > nameLimit ∨
    t.entryAt? (l₀ ++ [f.name]) = some .directory

/-- A file sticks in what is left exactly if it stuck before. -/
theorem Emptied.sticks_iff (h : Emptied l₀ t t') : t'.Sticks l₀ f ↔ t.Sticks l₀ f := by
  unfold Sticks
  rw [h.directory_iff]

end FileTree

namespace Disk

open FileTree (Loose Emptied Sticks)

variable {t : FileTree} {d f : Path} {l₀ : Location}

/-! ## Removing scratch files -/

/-- A scratch file that is removed was a file in the scratch directory. -/
theorem emptied_removeIfPresent (hloose : Loose d l₀ t) (hf : d.IsScratch f) :
    Emptied l₀ t ((removeIfPresent f).run t).2 := by
  obtain ⟨name, hdot, hup, rfl⟩ := hf
  rcases removeIfPresent_cases ⟨d.anchor, d.parts ++ [name]⟩ t with
    ⟨fault, hrun⟩ | hrun | ⟨l, e, hlocate, he, hfile, hrun⟩
  · rw [hrun]
    exact .refl l₀ t
  · rw [hrun]
    exact .refl l₀ t
  · rw [hrun]
    obtain rfl := hloose.inside hdot hup hlocate
    -- a directory is not removed, and there are no links in the scratch directory
    have hregular : FileTree.isRegular e = true := by
      have hlink := hloose.noLinks (List.prefix_append l₀ [name]) he
      cases e with
      | directory => exact absurd rfl hfile
      | file => rfl
      | link => exact nomatch hlink
    refine ⟨rfl, fun l => ?_⟩
    by_cases hl : l = l₀ ++ [name]
    · subst hl
      have hbelow : l₀ <+: l₀ ++ [name] ∧ l₀ ++ [name] ≠ l₀ := ⟨List.prefix_append _ _, by simp⟩
      refine .inr ⟨?_, hbelow, e, he, hregular⟩
      rw [FileTree.entryAt?_remove, if_pos ⟨rfl, by simp⟩]
    · exact .inl (by rw [FileTree.entryAt?_remove, if_neg fun hcond => hl hcond.1])

/-- **What the removal of a scratch file comes to**, as long as the scratch directory
    stands: nothing is removed if the file sticks, and otherwise what is in its place. -/
theorem run_removeIfPresent_scratch (hlocate : t.locate .entry d = .ok l₀)
    (hdirectory : t.entryAt? l₀ = some .directory) (hf : d.IsScratch f) :
    (t.Sticks l₀ f ∧ ∃ fault, (removeIfPresent f).run t = (.error fault, t)) ∨
      (¬ t.Sticks l₀ f ∧ (removeIfPresent f).run t = (.ok (), t.remove (l₀ ++ [f.name]))) := by
  obtain ⟨name, hdot, hup, rfl⟩ := hf
  have hname : (Path.mk d.anchor (d.parts ++ [name])).name = name := by
    unfold Path.name
    rw [List.getLast?_concat, Option.getD_some]
  unfold Sticks
  rw [run_removeIfPresent, FileTree.locate_child hdot hup hlocate hdirectory, hname]
  by_cases hnul : FileTree.holdsNul ⟨d.anchor, d.parts ++ [name]⟩ = true
  · rw [if_pos hnul]
    exact .inl ⟨.inl hnul, _, rfl⟩
  · rw [if_neg hnul]
    by_cases hlong : (Path.mk d.anchor (d.parts ++ [name])).toString.utf8ByteSize >
        FileTree.pathLimit ∨
        name.utf8ByteSize > FileTree.nameLimit
    · rw [if_pos hlong]
      refine .inl ⟨.inr ?_, _, rfl⟩
      rcases hlong with hpath | hname
      · exact .inl hpath
      · exact .inr (.inl hname)
    · rw [if_neg hlong]
      obtain ⟨hpath, hshort⟩ := not_or.mp hlong
      rw [or_iff_right hnul, or_iff_right hpath, or_iff_right hshort]
      dsimp only
      -- the name can be looked up, and only a directory in its place sticks
      rcases hentry : t.entryAt? (l₀ ++ [name]) with _ | _ | _ | _
      · rw [FileTree.remove_of_free hentry]
        exact .inr ⟨nofun, rfl⟩
      · exact .inl ⟨rfl, _, rfl⟩
      · exact .inr ⟨nofun, rfl⟩
      · exact .inr ⟨nofun, rfl⟩

/-- A file that sticks is not removed, and nothing is changed. -/
theorem removeIfPresent_of_sticks (hlocate : t.locate .entry d = .ok l₀)
    (hdirectory : t.entryAt? l₀ = some .directory) (hf : d.IsScratch f)
    (hsticks : t.Sticks l₀ f) : ∃ fault, (removeIfPresent f).run t = (.error fault, t) := by
  rcases run_removeIfPresent_scratch hlocate hdirectory hf with ⟨-, hrun⟩ | ⟨hnot, -⟩
  · exact hrun
  · exact absurd hsticks hnot

/-- A file that does not stick is removed, if it is there. -/
theorem removeIfPresent_of_not_sticks (hlocate : t.locate .entry d = .ok l₀)
    (hdirectory : t.entryAt? l₀ = some .directory) (hf : d.IsScratch f)
    (hsticks : ¬ t.Sticks l₀ f) :
    (removeIfPresent f).run t = (.ok (), t.remove (l₀ ++ [f.name])) := by
  rcases run_removeIfPresent_scratch hlocate hdirectory hf with ⟨hstuck, -⟩ | ⟨-, hrun⟩
  · exact absurd hstuck hsticks
  · exact hrun

/-- Whatever comes of it, removing scratch files only removes files of the scratch
    directory. -/
theorem emptied_forM {files : List Path} (hloose : Loose d l₀ t)
    (hfiles : ∀ f ∈ files, d.IsScratch f) :
    Emptied l₀ t ((files.forM removeIfPresent).run t).2 := by
  induction files generalizing t with
  | nil => exact .refl l₀ t
  | cons f later ih =>
      have hfirst := emptied_removeIfPresent hloose (hfiles f List.mem_cons_self)
      rw [run_forM_cons]
      rcases hrun : (removeIfPresent f).run t with ⟨fault | _, u⟩
      · rw [hrun] at hfirst
        exact hfirst
      · rw [hrun] at hfirst
        exact hfirst.trans (ih (hloose.of_opens hfirst.opens_back)
          fun other hin => hfiles other (List.mem_cons_of_mem _ hin))

/-- **Removing the scratch files fails** exactly if one of them sticks. -/
theorem forM_removeIfPresent_error_iff {files : List Path} (hloose : Loose d l₀ t)
    (hlocate : t.locate .entry d = .ok l₀) (hdirectory : t.entryAt? l₀ = some .directory)
    (hfiles : ∀ f ∈ files, d.IsScratch f) :
    (∃ fault, ((files.forM removeIfPresent).run t).1 = .error fault) ↔
      ∃ f ∈ files, t.Sticks l₀ f := by
  induction files generalizing t with
  | nil =>
      constructor
      · rintro ⟨fault, hfault⟩
        exact nomatch hfault
      · rintro ⟨f, hf, -⟩
        exact nomatch hf
  | cons f later ih =>
      have hf := hfiles f List.mem_cons_self
      have hfirst := emptied_removeIfPresent hloose hf
      rw [run_forM_cons]
      rcases run_removeIfPresent_scratch hlocate hdirectory hf with ⟨hsticks, fault, hrun⟩ |
        ⟨hnot, hrun⟩
      · rw [hrun]
        exact ⟨fun _ => ⟨f, List.mem_cons_self, hsticks⟩, fun _ => ⟨fault, rfl⟩⟩
      · rw [hrun] at hfirst ⊢
        -- a removal changes neither the way to the directory nor what sticks in it
        have hlater := ih (hloose.of_opens hfirst.opens_back) (hfirst.locate_eq_ok_iff.mpr hlocate)
          ((hfirst.directory_iff l₀).mpr hdirectory)
          fun other hin => hfiles other (List.mem_cons_of_mem _ hin)
        dsimp only
        rw [hlater]
        constructor
        · rintro ⟨other, hin, hsticks⟩
          exact ⟨other, List.mem_cons_of_mem _ hin, hfirst.sticks_iff.mp hsticks⟩
        · rintro ⟨other, hin, hsticks⟩
          rcases List.mem_cons.mp hin with rfl | hin
          · exact absurd hsticks hnot
          · exact ⟨other, hin, hfirst.sticks_iff.mpr hsticks⟩

/-! ## Removing the directory -/

/-- A directory goes with all that is in it; anything else stays. -/
theorem run_removeTree (p : Path) (t : FileTree) :
    (removeTree p).run t = (.ok (), if FileTree.holdsNul p then t else
      match t.locate .entry p with
      | .ok l => if t.entryAt? l = some .directory then t.removeBelow l else t
      | .error _ => t) := by
  unfold removeTree
  rw [run_bind_ok (run_get t)]
  by_cases hnul : FileTree.holdsNul p = true
  · rw [if_pos hnul, if_pos hnul]
    rfl
  · rw [if_neg hnul, if_neg hnul]
    rcases t.locate .entry p with reason | l
    · rfl
    · dsimp only
      by_cases hdirectory : t.entryAt? l = some .directory
      · rw [if_pos hdirectory, if_pos hdirectory]
        rfl
      · rw [if_neg hdirectory, if_neg hdirectory]
        rfl

end Disk

end AheadOfTime
