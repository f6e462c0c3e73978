import AheadOfTime.Proofs.Walk

/-! # Ways that lead into a directory

    `Steady d l₀ t` says that the path `d` leads to the location `l₀` in the tree
    `t`, and does so for reasons that lie outside `l₀`, and that no link stands at
    or below `l₀`.  Then whatever a path names below `d` lies below `l₀`
    (`Steady.inside`), and nothing that is done below `l₀`, or by making
    directories at free places, changes that (`Steady.of_spares`).

    Directories are made only at free places on the way to the path that needs
    them (`Disk.grown_makeDirectories`). -/

namespace AheadOfTime

namespace FileTree

/-! ## Trees without what lies below a location -/

/-- What is removed is what is below, and the place itself unless it is the root. -/
theorem entryAt?_removeBelow (t : FileTree) (l₀ l : Location) :
    (t.removeBelow l₀).entryAt? l = if l₀ <+: l ∧ l ≠ [] then none else t.entryAt? l := by
  unfold entryAt? removeBelow
  by_cases hroot : l = []
  · rw [if_pos hroot, if_pos hroot, if_neg fun h => h.2 hroot]
  · rw [if_neg hroot, if_neg hroot]
    refine (lookup_filter_key t.entries (fun other => !l₀.isPrefixOf other) l).trans ?_
    by_cases hbelow : l₀ <+: l
    · have hkey : ¬ (!l₀.isPrefixOf l) = true := by
        rw [List.isPrefixOf_iff_prefix.mpr hbelow]
        exact nofun
      have hcond : l₀ <+: l ∧ l ≠ [] := ⟨hbelow, hroot⟩
      rw [if_neg hkey, if_pos hcond]
    · have hkey : (!l₀.isPrefixOf l) = true := by
        rw [Bool.not_eq_true', ← Bool.not_eq_true, List.isPrefixOf_iff_prefix]
        exact hbelow
      have hcond : ¬ (l₀ <+: l ∧ l ≠ []) := fun h => hbelow h.1
      rw [if_pos hkey, if_neg hcond]

/-- A tree with more entries below a location opens the ways to entries. -/
theorem opens_of_removeBelow (t : FileTree) (l₀ : Location) :
    Opens .entry (t.removeBelow l₀) t := by
  refine ⟨rfl, fun l => ?_⟩
  rw [entryAt?_removeBelow]
  by_cases h : l₀ <+: l ∧ l ≠ []
  · rw [if_pos h]
    exact .inr ⟨nofun, fun _ _ _ => .inl rfl⟩
  · rw [if_neg h]
    exact .inl rfl

/-- A path that leads somewhere without what lies below a location leads there with
    it. -/
theorem locate_of_removeBelow {t : FileTree} {l₀ l : Location} {p : Path}
    (h : (t.removeBelow l₀).locate .entry p = .ok l) : t.locate .entry p = .ok l :=
  locate_of_opens (opens_of_removeBelow t l₀) (.inl rfl) h

/-! ## Steady ways -/

/-- The path leads to the location whatever stands there, and no link stands at
    or below the location. -/
structure Steady (d : Path) (l₀ : Location) (t : FileTree) : Prop where
  leads : (t.removeBelow l₀).locate .entry d = .ok l₀
  noLinks : ∀ l, l₀ <+: l → ∀ e, t.entryAt? l = some e → e.isLink = false

/-- A change that makes no links, and that changes nothing outside of `l₀` but
    places that are free or hold a file. -/
structure Spares (l₀ : Location) (t t' : FileTree) : Prop where
  workingDirectory : t'.workingDirectory = t.workingDirectory
  entries : ∀ l, t'.entryAt? l = t.entryAt? l ∨
    ((∀ e, t'.entryAt? l = some e → e.isLink = false) ∧
      (l₀ <+: l ∨ ∀ e, t.entryAt? l = some e → isRegular e = true))

/-- What stands in the tree without `l₀` stands in the whole tree. -/
theorem entryAt?_of_removeBelow {t : FileTree} {l₀ l : Location} {e : Entry}
    (h : (t.removeBelow l₀).entryAt? l = some e) : t.entryAt? l = some e := by
  rw [entryAt?_removeBelow] at h
  by_cases hbelow : l₀ <+: l ∧ l ≠ []
  · rw [if_pos hbelow] at h
    exact nomatch h
  · rw [if_neg hbelow] at h
    exact h

namespace Steady

variable {d : Path} {l₀ : Location} {t t' : FileTree}

theorem locate_eq (h : Steady d l₀ t) : t.locate .entry d = .ok l₀ :=
  locate_of_removeBelow h.leads

/-- **Steady ways stay steady** under a change that spares them. -/
theorem of_spares (h : Steady d l₀ t) (hspares : Spares l₀ t t') : Steady d l₀ t' := by
  have hopens : Opens .entry (t.removeBelow l₀) (t'.removeBelow l₀) := by
    refine ⟨hspares.workingDirectory, fun l => ?_⟩
    rw [entryAt?_removeBelow, entryAt?_removeBelow]
    by_cases hbelow : l₀ <+: l ∧ l ≠ []
    · rw [if_pos hbelow, if_pos hbelow]
      exact .inl rfl
    · rw [if_neg hbelow, if_neg hbelow]
      rcases hspares.entries l with heq | ⟨hlink, hplace⟩
      · exact .inl heq
      · rcases hplace with hinside | hfree
        · -- the root is a directory before and after
          have hroot : l = [] := Decidable.of_not_not fun hne => hbelow ⟨hinside, hne⟩
          rw [hroot]
          exact .inl rfl
        · exact .inr ⟨hfree, fun e he hislink => absurd hislink (by rw [hlink e he]; exact nofun)⟩
  refine ⟨locate_of_opens hopens (.inl rfl) h.leads, fun l hbelow e he => ?_⟩
  rcases hspares.entries l with heq | ⟨hlink, -⟩
  · exact h.noLinks l hbelow e (heq.symm.trans he)
  · exact hlink e he

end Steady

/-- What is put at or below a location, and is no link, is spared. -/
theorem spares_put (t : FileTree) {l₀ l : Location} {e : Entry} (hbelow : l₀ <+: l) (hl : l ≠ [])
    (he : e.isLink = false) : Spares l₀ t (t.put l e) := by
  refine ⟨rfl, fun l' => ?_⟩
  by_cases h : l' = l
  · rw [h]
    refine .inr ⟨fun e' he' => ?_, .inl hbelow⟩
    rw [← Option.some.inj ((t.entryAt?_put hl e).symm.trans he')]
    exact he
  · exact .inl (t.entryAt?_put_of_ne e h)

/-! ## Walks that go on behind a steady way -/

namespace Walks

variable {t : FileTree} {aim : Aim} {links : Nat} {here l₀ l : Location} {name : String}
  {rest : List String}

/-- How a walk goes on from a name that is not the last one. -/
theorem cons_cases (hne : rest ≠ []) (h : Walks t aim links here (name :: rest) l) :
    ((name = "" ∨ name = ".") ∧ Walks t aim links here rest l) ∨
    (name = ".." ∧ Walks t aim links here.dropLast rest l) ∨
    (Proper aim name rest ∧ t.entryAt? (here ++ [name]) = some .directory ∧
      Walks t aim links (here ++ [name]) rest l) ∨
    ∃ target links', Proper aim name rest ∧ t.entryAt? (here ++ [name]) = some (.link target) ∧
      Walks t aim links' (if target.toList.head? = some '/' then [] else here)
        (Text.pieces '/' target ++ rest) l := by
  cases h with
  | stay hdot hrest => exact .inl ⟨hdot, hrest⟩
  | up hrest => exact .inr (.inl ⟨rfl, hrest⟩)
  | down hproper hentry hrest => exact .inr (.inr (.inl ⟨hproper, hentry, hrest⟩))
  | stop _ _ => exact absurd rfl hne
  | follow hproper hentry _ hrest =>
      exact .inr (.inr (.inr ⟨_, _, hproper, hentry, hrest⟩))

/-- A walk by one name from `l₀` ends directly below it. -/
theorem inside_one (hlinks : ∀ l, l₀ <+: l → ∀ e, t.entryAt? l = some e → e.isLink = false)
    (hdot : ¬ (name = "" ∨ name = ".")) (hup : name ≠ "..")
    (hwalk : Walks t aim links l₀ [name] l) : l = l₀ ++ [name] := by
  cases hwalk with
  | stay hdot' _ => exact absurd hdot' hdot
  | up _ => exact absurd rfl hup
  | down _ _ hrest =>
      cases hrest
      rfl
  | stop _ _ => rfl
  | follow _ hentry _ _ =>
      exact nomatch hlinks _ (List.prefix_append l₀ _) _ hentry

/-- A walk that goes on by one name behind a steady way ends with that name. -/
theorem inside {links' : Nat} {m : Location} {names : List String}
    (hlinks : ∀ l, l₀ <+: l → ∀ e, t.entryAt? l = some e → e.isLink = false)
    (hdot : ¬ (name = "" ∨ name = ".")) (hup : name ≠ "..")
    (hsteady : Walks (t.removeBelow l₀) .entry links here names m) (hm : m = l₀)
    (hwalk : Walks t aim links' here (names ++ [name]) l) : l = l₀ ++ [name] := by
  induction hsteady generalizing links' with
  | here =>
      subst hm
      exact hwalk.inside_one hlinks hdot hup
  | stay hdot' _ ih =>
      rcases hwalk.cons_cases (by simp) with ⟨-, hrest⟩ | ⟨rfl, -⟩ | ⟨hproper, -⟩ |
        ⟨_, _, hproper, -⟩
      · exact ih hm hrest
      · exact absurd hdot' (by decide)
      · exact absurd hdot' hproper.notDot
      · exact absurd hdot' hproper.notDot
  | up _ ih =>
      rcases hwalk.cons_cases (by simp) with ⟨hdot', -⟩ | ⟨-, hrest⟩ | ⟨hproper, -⟩ |
        ⟨_, _, hproper, -⟩
      · exact absurd hdot' (by decide)
      · exact ih hm hrest
      · exact absurd rfl hproper.notUp
      · exact absurd rfl hproper.notUp
  | down hproper hentry _ ih =>
      have hentry' := entryAt?_of_removeBelow hentry
      rcases hwalk.cons_cases (by simp) with ⟨hdot', -⟩ | ⟨rfl, -⟩ | ⟨-, -, hrest⟩ |
        ⟨_, _, -, hlink, -⟩
      · exact absurd hdot' hproper.notDot
      · exact absurd rfl hproper.notUp
      · exact ih hm hrest
      · exact nomatch hentry'.symm.trans hlink
  | stop hproper _ =>
      -- the walk has come to `l₀`, and it goes on only through a directory
      rcases hwalk.cons_cases (by simp) with ⟨hdot', -⟩ | ⟨rfl, -⟩ | ⟨-, -, hrest⟩ |
        ⟨_, _, -, hlink, -⟩
      · exact absurd hdot' hproper.notDot
      · exact absurd rfl hproper.notUp
      · rw [hm] at hrest
        exact hrest.inside_one hlinks hdot hup
      · rw [hm] at hlink
        exact nomatch hlinks l₀ (List.prefix_refl l₀) _ hlink
  | follow hproper hentry _ _ ih =>
      have hentry' := entryAt?_of_removeBelow hentry
      rcases hwalk.cons_cases (by simp) with ⟨hdot', -⟩ | ⟨rfl, -⟩ | ⟨-, hdirectory, -⟩ |
        ⟨target', links', -, hlink, hrest⟩
      · exact absurd hdot' hproper.notDot
      · exact absurd rfl hproper.notUp
      · exact nomatch hentry'.symm.trans hdirectory
      · rw [← Entry.link.inj (Option.some.inj (hentry'.symm.trans hlink))] at hrest
        refine @ih links' hm ?_
        rw [List.append_assoc]
        exact hrest

end Walks

/-- **What is named below a steady way** lies below the location it leads to. -/
theorem Steady.inside {d : Path} {l₀ l : Location} {t : FileTree} (h : Steady d l₀ t) {aim : Aim}
    {name : String} (hdot : ¬ (name = "" ∨ name = ".")) (hup : name ≠ "..")
    (hlocate : t.locate aim ⟨d.anchor, d.parts ++ [name]⟩ = .ok l) : l = l₀ ++ [name] := by
  obtain ⟨-, hsteady⟩ := locate_eq_ok_iff.mp h.leads
  obtain ⟨-, hwalk⟩ := locate_eq_ok_iff.mp hlocate
  exact hsteady.inside h.noLinks hdot hup rfl hwalk

/-! ## Ways that may be cut -/

/-- A tree that opens the ways of one that opens those of a first one opens the
    ways of that, for ways to entries. -/
theorem Opens.trans {t t' t'' : FileTree} (h : Opens .entry t t') (h' : Opens .entry t' t'') :
    Opens .entry t t'' := by
  refine ⟨h'.workingDirectory.trans h.workingDirectory, fun l => ?_⟩
  rcases h.entries l with heq | ⟨hfree, -⟩
  · rcases h'.entries l with heq' | ⟨hfree', -⟩
    · exact .inl (heq'.trans heq)
    · exact .inr ⟨heq ▸ hfree', fun _ _ _ => .inl rfl⟩
  · exact .inr ⟨hfree, fun _ _ _ => .inl rfl⟩

/-- The path leads to the location, or by now nowhere: every way there is one in
    a tree in which it leads there steadily. -/
def Loose (d : Path) (l₀ : Location) (t : FileTree) : Prop := ∃ u, Opens .entry t u ∧ Steady d l₀ u

theorem Steady.loose {d : Path} {l₀ : Location} {t : FileTree} (h : Steady d l₀ t) :
    Loose d l₀ t := ⟨t, ⟨rfl, fun _ => .inl rfl⟩, h⟩

namespace Loose

variable {d : Path} {l₀ : Location} {t t' : FileTree}

/-- With entries taken away, a path leads to no other place. -/
theorem of_opens (h : Loose d l₀ t) (hopens : Opens .entry t' t) : Loose d l₀ t' := by
  obtain ⟨u, hu, hsteady⟩ := h
  exact ⟨u, hopens.trans hu, hsteady⟩

theorem noLinks (h : Loose d l₀ t) {l : Location} (hbelow : l₀ <+: l) {e : Entry}
    (he : t.entryAt? l = some e) : e.isLink = false := by
  obtain ⟨u, hopens, hsteady⟩ := h
  rcases hopens.entries l with heq | ⟨hregular, -⟩
  · exact hsteady.noLinks l hbelow e (heq.trans he)
  · cases e with
    | directory => rfl
    | file => rfl
    | link => exact nomatch hregular _ he

/-- Where the path leads at all, it leads to the place. -/
theorem locate_eq (h : Loose d l₀ t) {l : Location} (hlocate : t.locate .entry d = .ok l) :
    l = l₀ := by
  obtain ⟨u, hopens, hsteady⟩ := h
  have hsame := locate_of_opens hopens (.inl rfl) hlocate
  exact Except.ok.inj (hsame.symm.trans hsteady.locate_eq)

/-- What is named below the path is there or nowhere. -/
theorem inside (h : Loose d l₀ t) {name : String} (hdot : ¬ (name = "" ∨ name = "."))
    (hup : name ≠ "..") {l : Location}
    (hlocate : t.locate .entry ⟨d.anchor, d.parts ++ [name]⟩ = .ok l) : l = l₀ ++ [name] := by
  obtain ⟨u, hopens, hsteady⟩ := h
  exact hsteady.inside hdot hup (locate_of_opens hopens (.inl rfl) hlocate)

end Loose

/-! ## Places on the way to a path -/

/-- The path, or a path above it, leads to the location. -/
def OnTheWay (t : FileTree) (p : Path) (l : Location) : Prop :=
  ∃ parts, parts <+: p.parts ∧ t.locate .entry ⟨p.anchor, parts⟩ = .ok l

/-- Directories were made at free places on the way to the path, and nothing
    else was changed. -/
structure Grown (p : Path) (t t' : FileTree) : Prop where
  workingDirectory : t'.workingDirectory = t.workingDirectory
  entries : ∀ l, t'.entryAt? l = t.entryAt? l ∨
    (t.entryAt? l = none ∧ t'.entryAt? l = some .directory ∧ OnTheWay t' p l)

namespace Grown

variable {p q : Path} {t t' u : FileTree}

theorem refl (p : Path) (t : FileTree) : Grown p t t := ⟨rfl, fun _ => .inl rfl⟩

/-- New directories open the ways past the free places where they were made. -/
theorem opens (h : Grown p t t') (aim : Aim) : Opens aim t t' := by
  refine ⟨h.workingDirectory, fun l => ?_⟩
  rcases h.entries l with heq | ⟨hfree, hdirectory, -⟩
  · exact .inl heq
  · refine .inr ⟨?_, ?_⟩
    · rw [hfree]
      exact nofun
    · intro e he hlink
      rw [← Option.some.inj (hdirectory.symm.trans he)] at hlink
      exact nomatch hlink

/-- New directories spare what is outside of any place. -/
theorem spares (h : Grown p t t') (l₀ : Location) : Spares l₀ t t' := by
  refine ⟨h.workingDirectory, fun l => ?_⟩
  rcases h.entries l with heq | ⟨hfree, hdirectory, -⟩
  · exact .inl heq
  · refine .inr ⟨?_, .inr ?_⟩
    · intro e he
      rw [← Option.some.inj (hdirectory.symm.trans he)]
      rfl
    · rw [hfree]
      exact nofun

theorem trans (h : Grown p t t') (h' : Grown p t' u) : Grown p t u := by
  refine ⟨h'.workingDirectory.trans h.workingDirectory, fun l => ?_⟩
  rcases h'.entries l with heq' | ⟨hfree', hdirectory', hway'⟩
  · rw [heq']
    rcases h.entries l with heq | ⟨hfree, hdirectory, parts, hparts, hlocate⟩
    · exact .inl heq
    · exact .inr ⟨hfree, hdirectory, parts, hparts,
        locate_of_opens (h'.opens .entry) (.inl rfl) hlocate⟩
  · rcases h.entries l with heq | ⟨hfree, hdirectory, -⟩
    · exact .inr ⟨heq.symm.trans hfree', hdirectory', hway'⟩
    · exact nomatch hdirectory.symm.trans hfree'

/-- What is on the way to a path is on the way to the paths below. -/
theorem below (h : Grown q t t') (hanchor : q.anchor = p.anchor) (hparts : q.parts <+: p.parts) :
    Grown p t t' := by
  refine ⟨h.workingDirectory, fun l => ?_⟩
  rcases h.entries l with heq | ⟨hfree, hdirectory, parts, habove, hlocate⟩
  · exact .inl heq
  · rw [hanchor] at hlocate
    exact .inr ⟨hfree, hdirectory, parts, habove.trans hparts, hlocate⟩

end Grown

end FileTree

/-! ## Making directories -/

namespace Disk

variable {p : Path} {t : FileTree}

/-- A directory is made where its path leads, if that place is free. -/
theorem makeDirectoryAs_cases (p : Path) (given : String) (t : FileTree) :
    (∃ fault, (makeDirectoryAs p given).run t = (.error fault, t) ∧
      ∀ path, fault = .refused .noEntry path → ∀ l, t.locate .entry p ≠ .ok l) ∨
    ∃ l, t.locate .entry p = .ok l ∧ t.entryAt? l = none ∧
      (makeDirectoryAs p given).run t = (.ok (), t.put l .directory) := by
  unfold makeDirectoryAs
  rw [run_call]
  by_cases hnul : FileTree.holdsNul p = true
  · rw [if_pos hnul]
    refine .inl ⟨_, rfl, fun path hfault => ?_⟩
    exact nomatch hfault
  · rw [if_neg hnul]
    dsimp only [bind, Except.bind]
    rcases t.locate .entry p with reason | l
    · refine .inl ⟨_, rfl, fun path _ l hlocate => ?_⟩
      exact nomatch hlocate
    · dsimp only
      -- whatever stands there already is in the way
      rcases hentry : t.entryAt? l with _ | e
      · exact .inr ⟨l, rfl, hentry, rfl⟩
      · refine .inl ⟨_, rfl, fun path hfault => ?_⟩
        exact nomatch hfault

/-- A directory that is made stands where its path leads, at a place that was free. -/
theorem makeDirectoryAs_ok {given : String} {t' : FileTree}
    (h : (makeDirectoryAs p given).run t = (.ok (), t')) :
    ∃ l, t.locate .entry p = .ok l ∧ t.entryAt? l = none ∧ t' = t.put l .directory := by
  rcases makeDirectoryAs_cases p given t with ⟨fault, hrefused, -⟩ | ⟨l, hlocate, hfree, hmade⟩
  · exact absurd (h.symm.trans hrefused) ok_ne_error
  · exact ⟨l, hlocate, hfree, congrArg Prod.snd (h.symm.trans hmade)⟩

theorem grown_makeDirectory (p : Path) (t : FileTree) :
    FileTree.Grown p t ((makeDirectory p).run t).2 := by
  unfold makeDirectory
  rcases makeDirectoryAs_cases p p.toString t with ⟨fault, hrun, -⟩ | ⟨l, hlocate, hfree, hrun⟩
  · rw [hrun]
    exact .refl p t
  · rw [hrun]
    have hl : l ≠ [] := by
      rintro rfl
      exact nomatch hfree
    refine ⟨rfl, fun l' => ?_⟩
    by_cases hl' : l' = l
    · subst hl'
      -- the path leads to the new directory, as nothing on its way has changed
      refine .inr ⟨hfree, t.entryAt?_put hl .directory, p.parts, List.prefix_refl _, ?_⟩
      exact FileTree.locate_of_opens (FileTree.opens_put .entry (by rw [hfree]; exact nofun) rfl)
        (.inl rfl) hlocate
    · exact .inl (t.entryAt?_put_of_ne .directory hl')

/-- Looking whether there is a directory changes nothing. -/
theorem unlessDirectory_state (p : Path) (fault : Fault) (t : FileTree) :
    ((unlessDirectory p fault).run t).2 = t := by
  unfold unlessDirectory
  rw [run_bind_ok (run_get t)]
  rcases t.isDirectory? p with other | _ | _ <;> rfl

theorem makeOne_state (p : Path) (t : FileTree) :
    ((makeDirectoriesRev.makeOne p).run t).2 = ((makeDirectory p).run t).2 := by
  unfold makeDirectoriesRev.makeOne
  rw [run_tryCatch]
  rcases (makeDirectory p).run t with ⟨fault | _, u⟩
  · dsimp only
    split
    · rfl
    · rfl
    · exact unlessDirectory_state _ _ _
  · rfl

theorem grown_makeDirectoriesRev (anchor : Anchor) (names : List String) (t : FileTree) :
    FileTree.Grown ⟨anchor, names.reverse⟩ t ((makeDirectoriesRev anchor names).run t).2 := by
  induction names generalizing t with
  | nil =>
      unfold makeDirectoriesRev
      rw [makeOne_state]
      exact grown_makeDirectory _ t
  | cons name above ih =>
      have hmake := grown_makeDirectory ⟨anchor, (name :: above).reverse⟩ t
      unfold makeDirectoriesRev
      rw [run_tryCatch]
      rcases hrun : (makeDirectory ⟨anchor, (name :: above).reverse⟩).run t with ⟨fault | _, u⟩
      · rw [hrun] at hmake
        dsimp only
        split
        · -- a parent is missing: the parents are made, and then the directory is tried again
          have habove : FileTree.Grown ⟨anchor, (name :: above).reverse⟩ u
              ((makeDirectoriesRev anchor above).run u).2 := by
            refine (ih u).below rfl ?_
            rw [List.reverse_cons]
            exact List.prefix_append _ _
          rw [run_bind]
          rcases hrest : (makeDirectoriesRev anchor above).run u with ⟨fault | _, u'⟩
          · rw [hrest] at habove
            exact hmake.trans habove
          · rw [hrest] at habove
            dsimp only
            rw [makeOne_state]
            exact (hmake.trans habove).trans (grown_makeDirectory _ u')
        · exact hmake
        · rw [unlessDirectory_state]
          exact hmake
      · rw [hrun] at hmake
        exact hmake

/-- **Directories are made** only at free places on the way. -/
theorem grown_makeDirectories (p : Path) (t : FileTree) :
    FileTree.Grown p t ((makeDirectories p).run t).2 := by
  have h := grown_makeDirectoriesRev p.anchor p.parts.reverse t
  rw [List.reverse_reverse] at h
  exact h

/-- Where the path leads somewhere, no directory above it is made. -/
theorem makeDirectories_of_locate {l : Location} (h : t.locate .entry p = .ok l) :
    ((makeDirectories p).run t).2 = t ∨
      (t.entryAt? l = none ∧ ((makeDirectories p).run t).2 = t.put l .directory) := by
  have hstate : ((makeDirectories p).run t).2 = ((makeDirectory p).run t).2 := by
    unfold makeDirectories
    obtain ⟨anchor, parts⟩ := p
    rcases hparts : parts.reverse with _ | ⟨name, above⟩
    · rw [List.reverse_eq_nil_iff] at hparts
      rw [hparts]
      exact makeOne_state _ t
    · have hback : (name :: above).reverse = parts := by rw [← hparts, List.reverse_reverse]
      unfold makeDirectoriesRev
      rw [run_tryCatch, hback]
      rcases makeDirectoryAs_cases ⟨anchor, parts⟩ (Path.mk anchor parts).toString t with
        ⟨fault, hrun, hfault⟩ | ⟨l', -, -, hrun⟩
      · rw [show (makeDirectory ⟨anchor, parts⟩).run t = _ from hrun]
        dsimp only
        split
        · -- a parent that is missing would keep the path from leading anywhere
          exact absurd h (hfault _ rfl l)
        · rfl
        · exact unlessDirectory_state _ _ _
      · rw [show (makeDirectory ⟨anchor, parts⟩).run t = _ from hrun]
  rw [hstate]
  rcases makeDirectoryAs_cases p p.toString t with ⟨fault, hrun, -⟩ | ⟨l', hlocate, hfree, hrun⟩
  · left
    rw [show (makeDirectory p).run t = _ from hrun]
  · right
    obtain rfl : l' = l := Except.ok.inj (hlocate.symm.trans h)
    rw [show (makeDirectory p).run t = _ from hrun]
    exact ⟨hfree, rfl⟩

end Disk

end AheadOfTime
