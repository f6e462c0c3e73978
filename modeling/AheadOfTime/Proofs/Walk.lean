import AheadOfTime.Proofs.Outcome

/-! # Where paths lead in a changing tree

    A path is walked name by name, and what stands at a name decides how the walk
    goes on.  `Walks` is the walk that arrives, one constructor for each way of
    going on, and `walk_eq_ok_iff` says that it is the walk of the model.

    A change of the tree that touches only places where no walk goes on, because
    they are free or hold a file, leaves every way that led somewhere as it was
    (`Opens`, `locate_of_opens`).  What is written is therefore found again
    (`Disk.status_of_writeText`). -/

namespace AheadOfTime

namespace Entry

/-- Whether the entry is a symbolic link. -/
def isLink : Entry → Bool
  | .link _ => true
  | _ => false

end Entry

/-- Whether a link at the end is what is aimed at. -/
abbrev Aim.TakesLinks (aim : Aim) : Prop := aim = .entry ∨ aim = .itself

namespace FileTree

/-! ## Walks that arrive -/

/-- A name that has to be looked up, with the names behind it. -/
structure Proper (aim : Aim) (name : String) (rest : List String) : Prop where
  notDot : ¬ (name = "" ∨ name = ".")
  notUp : name ≠ ".."
  fits : ¬ name.utf8ByteSize > nameLimit
  noSlash : ¬ (aim = .creation ∧ rest ≠ [] ∧ rest.all (· = ""))

/-- What a walk may end at: a free place, a file, or a link that is aimed at. -/
def MayEnd (aim : Aim) (entry : Option Entry) : Prop :=
  ∀ e, entry = some e → isRegular e = true ∨ (e.isLink = true ∧ aim.TakesLinks)

/-- A walk with at most so many links arrives at a location. -/
inductive Walks (t : FileTree) (aim : Aim) :
    Nat → Location → List String → Location → Prop where
  | here {links : Nat} {here : Location} : Walks t aim links here [] here
  | stay {links : Nat} {here l : Location} {name : String} {rest : List String} :
      name = "" ∨ name = "." → Walks t aim links here rest l →
      Walks t aim links here (name :: rest) l
  | up {links : Nat} {here l : Location} {rest : List String} :
      Walks t aim links here.dropLast rest l → Walks t aim links here (".." :: rest) l
  | down {links : Nat} {here l : Location} {name : String} {rest : List String} :
      Proper aim name rest → t.entryAt? (here ++ [name]) = some .directory →
      Walks t aim links (here ++ [name]) rest l → Walks t aim links here (name :: rest) l
  | stop {links : Nat} {here : Location} {name : String} :
      Proper aim name [] → MayEnd aim (t.entryAt? (here ++ [name])) →
      Walks t aim links here [name] (here ++ [name])
  | follow {links : Nat} {here l : Location} {name target : String} {rest : List String} :
      Proper aim name rest → t.entryAt? (here ++ [name]) = some (.link target) →
      ¬ (rest = [] ∧ aim.TakesLinks) →
      Walks t aim links (if target.toList.head? = some '/' then [] else here)
        (Text.pieces '/' target ++ rest) l →
      Walks t aim (links + 1) here (name :: rest) l

/-- A name that has to be looked up is decided by what stands there. -/
theorem walkNames_of_proper {t : FileTree} {aim : Aim} {name : String} {rest : List String}
    (h : Proper aim name rest)
    (follow : Location → String → List String → Except Refusal Location) (here : Location) :
    t.walkNames aim follow here (name :: rest) = match t.entryAt? (here ++ [name]) with
      | some .directory => t.walkNames aim follow (here ++ [name]) rest
      | some (.file _ _) => if rest = [] then .ok (here ++ [name]) else .error .notDirectory
      | some (.link target) =>
        if rest = [] ∧ aim.TakesLinks then .ok (here ++ [name]) else follow here target rest
      | none => if rest = [] then .ok (here ++ [name]) else .error .noEntry := by
  rw [walkNames, if_neg h.notDot, if_neg h.notUp, if_neg h.fits]
  exact if_neg h.noSlash

private theorem of_ends {rest : List String} {l m : Location} {refusal : Refusal}
    (h : (if rest = [] then .ok l else .error refusal) = Except.ok m) : rest = [] ∧ l = m := by
  by_cases hrest : rest = []
  · rw [if_pos hrest] at h
    exact ⟨hrest, Except.ok.inj h⟩
  · rw [if_neg hrest] at h
    exact nomatch h

/-- The walk along names arrives only as `Walks` says. -/
theorem Walks.of_walkNames {t : FileTree} {aim : Aim} {links : Nat}
    {follow : Location → String → List String → Except Refusal Location} {l : Location}
    (hfollow : ∀ here name target rest, Proper aim name rest →
      t.entryAt? (here ++ [name]) = some (.link target) → ¬ (rest = [] ∧ aim.TakesLinks) →
      follow here target rest = .ok l → Walks t aim links here (name :: rest) l)
    {here : Location} {names : List String} (h : t.walkNames aim follow here names = .ok l) :
    Walks t aim links here names l := by
  -- induction on the names; the cases are the tests of one step, in their order
  induction names generalizing here with
  | nil =>
      rw [← Except.ok.inj h]
      exact .here
  | cons name rest ih =>
      by_cases hdot : name = "" ∨ name = "."
      · rw [walkNames, if_pos hdot] at h
        exact .stay hdot (ih h)
      · by_cases hup : name = ".."
        · rw [walkNames, if_neg hdot, if_pos hup] at h
          rw [hup]
          exact .up (ih h)
        · by_cases hlong : name.utf8ByteSize > nameLimit
          · rw [walkNames, if_neg hdot, if_neg hup, if_pos hlong] at h
            exact nomatch h
          · by_cases hslash : aim = .creation ∧ rest ≠ [] ∧ rest.all (· = "")
            · rw [walkNames, if_neg hdot, if_neg hup, if_neg hlong, if_pos hslash] at h
              exact nomatch h
            · have hproper : Proper aim name rest := ⟨hdot, hup, hlong, hslash⟩
              rw [walkNames_of_proper hproper] at h
              rcases hentry : t.entryAt? (here ++ [name]) with _ | _ | _ | target
              · rw [hentry] at h
                obtain ⟨rfl, rfl⟩ := of_ends h
                exact .stop hproper (by rw [hentry]; exact nofun)
              · rw [hentry] at h
                exact .down hproper hentry (ih h)
              · rw [hentry] at h
                obtain ⟨rfl, rfl⟩ := of_ends h
                refine .stop hproper fun e he => ?_
                rw [← Option.some.inj (hentry.symm.trans he)]
                exact .inl rfl
              · rw [hentry] at h
                dsimp only at h
                -- a link is followed, unless the path ends with it and the aim is the link
                by_cases htakes : rest = [] ∧ aim.TakesLinks
                · rw [if_pos htakes] at h
                  obtain ⟨rfl, htakes⟩ := htakes
                  rw [← Except.ok.inj h]
                  refine .stop hproper fun e he => ?_
                  rw [← Option.some.inj (hentry.symm.trans he)]
                  exact .inr ⟨rfl, htakes⟩
                · rw [if_neg htakes] at h
                  exact hfollow here name target rest hproper hentry htakes h

/-- **The walks that arrive** are those of the model. -/
theorem walk_eq_ok_iff {t : FileTree} {aim : Aim} {links : Nat} {here l : Location}
    {names : List String} :
    t.walk aim links here names = .ok l ↔ Walks t aim links here names l := by
  constructor
  · intro h
    induction links generalizing here names with
    | zero =>
        refine .of_walkNames (fun here name target rest _ _ _ hloop => ?_) h
        cases hloop
    | succ links ih =>
        exact .of_walkNames (fun here name target rest hproper hentry htakes hfollow =>
          .follow hproper hentry htakes (ih hfollow)) h
  · intro h
    -- back, case by case: a walk unfolds only where it is known whether links are left
    induction h with
    | @here links here => cases links <;> rfl
    | @stay links here l name rest hdot _ ih =>
        cases links <;> rw [walk, walkNames, if_pos hdot] <;> exact ih
    | @up links here l rest _ ih =>
        have hdot : ¬ (".." = "" ∨ ".." = ".") := by decide
        cases links <;> rw [walk, walkNames, if_neg hdot, if_pos rfl] <;> exact ih
    | @down links here l name rest hproper hentry _ ih =>
        cases links <;> rw [walk, walkNames_of_proper hproper, hentry] <;> exact ih
    | @stop links here name hproper hend =>
        have hends : ∀ follow, t.walkNames aim follow here [name] = .ok (here ++ [name]) := by
          intro follow
          rw [walkNames_of_proper hproper]
          rcases hentry : t.entryAt? (here ++ [name]) with _ | _ | _ | target
          · rfl
          · rcases hend _ hentry with hregular | ⟨hlink, -⟩
            · exact nomatch hregular
            · exact nomatch hlink
          · rfl
          · rcases hend _ hentry with hregular | ⟨-, htakes⟩
            · exact nomatch hregular
            · exact if_pos ⟨rfl, htakes⟩
        cases links <;> exact hends _
    | @follow links here l name target rest hproper hentry htakes _ ih =>
        rw [walk, walkNames_of_proper hproper, hentry]
        dsimp only
        rw [if_neg htakes]
        exact ih

/-- A path is located by a walk, unless it is too long. -/
theorem locate_eq_ok_iff {t : FileTree} {aim : Aim} {p : Path} {l : Location} :
    t.locate aim p = .ok l ↔
      ¬ p.toString.utf8ByteSize > pathLimit ∧ Walks t aim linkLimit (t.start p) p.parts l := by
  unfold locate
  by_cases hlong : p.toString.utf8ByteSize > pathLimit
  · rw [if_pos hlong]
    exact ⟨nofun, fun h => absurd hlong h.1⟩
  · rw [if_neg hlong, walk_eq_ok_iff]
    exact ⟨fun h => ⟨hlong, h⟩, fun h => h.2⟩

/-! ## Trees with another entry -/

/-- A filter by keys keeps what is looked up under the keys it lets through. -/
theorem lookup_filter_key (entries : List (Location × Entry)) (p : Location → Bool)
    (l : Location) :
    (entries.filter fun entry => p entry.1).lookup l = if p l then entries.lookup l else none := by
  induction entries with
  | nil =>
      rw [List.filter_nil, List.lookup_nil, ite_self]
  | cons entry later ih =>
      rw [List.filter_cons]
      by_cases hl : l = entry.1
      · subst hl
        split
        · rw [List.lookup_cons_self, List.lookup_cons_self]
        · rename_i hp
          rw [ih, if_neg hp]
      · have hlater : (entry :: later).lookup l = later.lookup l := by
          rw [List.lookup_cons, beq_false_of_ne hl]
        rw [hlater, ← ih]
        split
        · rw [List.lookup_cons, beq_false_of_ne hl]
        · rfl

theorem entryAt?_put_of_ne (t : FileTree) {l l' : Location} (e : Entry) (h : l' ≠ l) :
    (t.put l e).entryAt? l' = t.entryAt? l' := by
  unfold entryAt? put
  by_cases hroot : l' = []
  · rw [if_pos hroot, if_pos hroot]
  · rw [if_neg hroot, if_neg hroot, List.lookup_cons, beq_false_of_ne h]
    have hkeys := lookup_filter_key t.entries (fun other => decide (other ≠ l)) l'
    rw [decide_eq_true h, if_pos rfl] at hkeys
    exact hkeys

/-- Nothing is removed but what is at the place. -/
theorem entryAt?_remove (t : FileTree) (l l' : Location) :
    (t.remove l).entryAt? l' = if l' = l ∧ l ≠ [] then none else t.entryAt? l' := by
  unfold entryAt? remove
  by_cases hroot : l' = []
  · have hcond : ¬ (l' = l ∧ l ≠ []) := fun ⟨hl, hne⟩ => hne (hl ▸ hroot)
    rw [if_pos hroot, if_neg hcond, if_pos hroot]
  · have hkeys := lookup_filter_key t.entries (fun other => decide (other ≠ l)) l'
    rw [if_neg hroot, if_neg hroot]
    refine hkeys.trans ?_
    by_cases hl : l' = l
    · have hcond : l' = l ∧ l ≠ [] := ⟨hl, hl ▸ hroot⟩
      rw [if_pos hcond, if_neg (by simpa using hl)]
    · rw [if_pos (by simpa using hl), if_neg fun hcond => hl hcond.1]

/-- There is nothing to remove where nothing stands. -/
theorem remove_of_free {t : FileTree} {l : Location} (h : t.entryAt? l = none) :
    t.remove l = t := by
  have hl : l ≠ [] := by
    rintro rfl
    exact nomatch h
  rw [entryAt?, if_neg hl, List.lookup_eq_none_iff] at h
  have hkept : t.entries.filter (fun entry => entry.1 ≠ l) = t.entries := by
    refine List.filter_eq_self.mpr fun entry hentry => decide_eq_true fun hsame => ?_
    exact absurd (h entry hentry) (by rw [hsame]; simp)
  rw [remove, hkept]

/-! ## Ways that stay open -/

/-- Where the trees differ, no walk through `t` goes on, and if `t'` has a link
    there, it is aimed at. -/
structure Opens (aim : Aim) (t t' : FileTree) : Prop where
  workingDirectory : t'.workingDirectory = t.workingDirectory
  entries : ∀ l, t'.entryAt? l = t.entryAt? l ∨
    ((∀ e, t.entryAt? l = some e → isRegular e = true) ∧
      ∀ e, t'.entryAt? l = some e → e.isLink = true → aim.TakesLinks)

/-- An entry that is no link opens the ways past a place that was free or held a
    file. -/
theorem opens_put {t : FileTree} {l : Location} {e : Entry} (aim : Aim)
    (hfree : ∀ e, t.entryAt? l = some e → isRegular e = true) (he : e.isLink = false) :
    Opens aim t (t.put l e) := by
  have hl : l ≠ [] := by
    rintro rfl
    exact nomatch hfree .directory rfl
  refine ⟨rfl, fun l' => ?_⟩
  by_cases h : l' = l
  · rw [h]
    refine .inr ⟨hfree, fun e' he' hlink => ?_⟩
    rw [entryAt?_put t hl] at he'
    rw [← Option.some.inj he', he] at hlink
    exact nomatch hlink
  · exact .inl (entryAt?_put_of_ne t e h)

/-- A tree with an entry more, whatever it is, opens the ways to entries. -/
theorem opens_of_remove (t : FileTree) (l : Location) : Opens .entry (t.remove l) t := by
  refine ⟨rfl, fun l' => ?_⟩
  rw [entryAt?_remove]
  by_cases h : l' = l ∧ l ≠ []
  · rw [if_pos h]
    exact .inr ⟨nofun, fun _ _ _ => .inl rfl⟩
  · rw [if_neg h]
    exact .inl rfl

/-- A way found with the first aim serves the second one. -/
def Serves (aim aim' : Aim) : Prop := aim' = aim ∨ (aim = .creation ∧ aim' = .target)

theorem Serves.proper {aim aim' : Aim} (h : Serves aim aim') {name : String}
    {rest : List String} (hproper : Proper aim name rest) : Proper aim' name rest := by
  rcases h with rfl | ⟨rfl, rfl⟩
  · exact hproper
  · exact ⟨hproper.notDot, hproper.notUp, hproper.fits, fun hslash => nomatch hslash.1⟩

theorem Serves.takesLinks_iff {aim aim' : Aim} (h : Serves aim aim') :
    aim'.TakesLinks ↔ aim.TakesLinks := by
  rcases h with rfl | ⟨rfl, rfl⟩
  · exact Iff.rfl
  · decide

/-- **A walk that arrives** arrives at the same place in a tree that opens its
    ways. -/
theorem Walks.of_opens {t t' : FileTree} {aim aim' : Aim} (h : Opens aim' t t')
    (haim : Serves aim aim') {links : Nat} {here l : Location} {names : List String}
    (hwalk : Walks t aim links here names l) : Walks t' aim' links here names l := by
  induction hwalk with
  | here => exact .here
  | stay hdot _ ih => exact .stay hdot ih
  | up _ ih => exact .up ih
  | @down links here l name rest hproper hentry _ ih =>
      rcases h.entries (here ++ [name]) with heq | ⟨hfree, -⟩
      · exact .down (haim.proper hproper) (heq.trans hentry) ih
      · exact nomatch hfree _ hentry
  | @stop links here name hproper hend =>
      rcases h.entries (here ++ [name]) with heq | ⟨-, hlinks⟩
      · refine .stop (haim.proper hproper) fun e he => ?_
        rcases hend e (heq.symm.trans he) with hregular | ⟨hlink, htakes⟩
        · exact .inl hregular
        · exact .inr ⟨hlink, haim.takesLinks_iff.mpr htakes⟩
      · -- something else stands where the walk ended
        rcases hentry : t'.entryAt? (here ++ [name]) with _ | _ | ⟨bytes, executable⟩ | target
        · exact .stop (haim.proper hproper) (by rw [hentry]; exact nofun)
        · exact .down (haim.proper hproper) hentry .here
        · refine .stop (haim.proper hproper) fun e he => ?_
          rw [← Option.some.inj (hentry.symm.trans he)]
          exact .inl rfl
        · refine .stop (haim.proper hproper) fun e he => ?_
          rw [← Option.some.inj (hentry.symm.trans he)]
          exact .inr ⟨rfl, hlinks _ hentry rfl⟩
  | @follow links here l name target rest hproper hentry htakes _ ih =>
      rcases h.entries (here ++ [name]) with heq | ⟨hfree, -⟩
      · exact .follow (haim.proper hproper) (heq.trans hentry)
          (fun hend => htakes ⟨hend.1, haim.takesLinks_iff.mp hend.2⟩) ih
      · exact nomatch hfree _ hentry

/-- A path that leads somewhere still leads there in a tree that opens the
    ways. -/
theorem locate_of_opens {t t' : FileTree} {aim aim' : Aim} (h : Opens aim' t t')
    (haim : Serves aim aim') {p : Path} {l : Location} (hlocate : t.locate aim p = .ok l) :
    t'.locate aim' p = .ok l := by
  obtain ⟨hfits, hwalk⟩ := locate_eq_ok_iff.mp hlocate
  have hstart : t'.start p = t.start p := by
    unfold start
    rw [h.workingDirectory]
  refine locate_eq_ok_iff.mpr ⟨hfits, ?_⟩
  rw [hstart]
  exact hwalk.of_opens h haim

/-- A file or a link stands at the path. -/
def HoldsFile (t : FileTree) (p : Path) : Prop :=
  holdsNul p = false ∧ ∃ l e, t.locate .entry p = .ok l ∧ t.entryAt? l = some e ∧ e ≠ .directory

end FileTree

/-! ## What an operation that succeeds has done -/

namespace Disk

/-- What a system call comes to: it is not even made for a path with a NUL. -/
theorem run_call {α : Type} (p : Path) (given : String)
    (act : FileTree → Except Refusal (α × FileTree)) (t : FileTree) :
    (call p given act).run t = if FileTree.holdsNul p then (.error .nullByte, t)
      else match act t with
        | .ok (a, t') => (.ok a, t')
        | .error reason => (.error (.refused reason given), t) := by
  unfold call
  by_cases hnul : FileTree.holdsNul p = true
  · rw [if_pos hnul, if_pos hnul]
    rfl
  · rw [if_neg hnul, if_neg hnul]
    show (get >>= _ : Disk α).run t = _
    rw [run_bind_ok (run_get t)]
    rcases act t with reason | ⟨a, t'⟩ <;> rfl

/-- A system call that succeeds was given a path that it takes. -/
theorem call_ok {α : Type} {p : Path} {given : String}
    {act : FileTree → Except Refusal (α × FileTree)} {t t' : FileTree} {a : α}
    (h : (call p given act).run t = (.ok a, t')) :
    FileTree.holdsNul p = false ∧ act t = .ok (a, t') := by
  rw [run_call] at h
  by_cases hnul : FileTree.holdsNul p = true
  · rw [if_pos hnul] at h
    exact absurd h error_ne_ok
  · rw [if_neg hnul] at h
    refine ⟨Bool.not_eq_true _ ▸ hnul, ?_⟩
    rcases hact : act t with reason | ⟨b, u⟩
    · rw [hact] at h
      exact absurd h error_ne_ok
    · rw [hact] at h
      rw [Except.ok.inj (congrArg Prod.fst h), show u = t' from congrArg Prod.snd h]

/-- A system call that is refused has changed nothing. -/
theorem call_error {α : Type} {p : Path} {given : String}
    {act : FileTree → Except Refusal (α × FileTree)} {t t' : FileTree} {fault : Fault}
    (h : (call p given act).run t = (.error fault, t')) : t' = t := by
  rw [run_call] at h
  by_cases hnul : FileTree.holdsNul p = true
  · rw [if_pos hnul] at h
    exact (congrArg Prod.snd h).symm
  · rw [if_neg hnul] at h
    rcases hact : act t with reason | ⟨a, u⟩
    · rw [hact] at h
      exact (congrArg Prod.snd h).symm
    · rw [hact] at h
      exact absurd h ok_ne_error

/-- A text that is written stands where its path leads, at a place that was free
    or held a file. -/
theorem writeText_ok {p : Path} {text : String} {t t' : FileTree}
    (h : (writeText p text).run t = (.ok (), t')) :
    ∃ l executable, t.locate .creation p = .ok l ∧
      (∀ e, t.entryAt? l = some e → FileTree.isRegular e = true) ∧
      t' = t.put l (.ofText text executable) := by
  obtain ⟨-, hact⟩ := call_ok h
  rcases hlocate : t.locate .creation p with refusal | l
  · rw [hlocate] at hact
    exact nomatch hact
  · rw [hlocate] at hact
    dsimp only [bind, Except.bind] at hact
    rcases hentry : t.entryAt? l with _ | _ | ⟨bytes, executable⟩ | target
    · rw [hentry] at hact
      refine ⟨l, false, rfl, ?_, (congrArg Prod.snd (Except.ok.inj hact)).symm⟩
      rw [hentry]
      exact nofun
    · rw [hentry] at hact
      exact nomatch hact
    · rw [hentry] at hact
      refine ⟨l, executable, rfl, ?_, (congrArg Prod.snd (Except.ok.inj hact)).symm⟩
      rw [hentry]
      intro e he
      rw [← Option.some.inj he]
      rfl
    · rw [hentry] at hact
      exact nomatch hact

/-- **What is written is found** where it was written. -/
theorem status_of_writeText {p : Path} {text : String} {t t' : FileTree}
    (h : (writeText p text).run t = (.ok (), t')) :
    ∃ executable, t'.status p = .ok (.ofText text executable) := by
  obtain ⟨l, executable, hlocate, hfree, rfl⟩ := writeText_ok h
  have hl : l ≠ [] := by
    rintro rfl
    exact nomatch hfree .directory rfl
  have hfound := FileTree.locate_of_opens (FileTree.opens_put .target hfree
    (e := .ofText text executable) rfl) (.inr ⟨rfl, rfl⟩) hlocate
  refine ⟨executable, ?_⟩
  unfold FileTree.status
  rw [hfound]
  dsimp only [bind, Except.bind]
  rw [FileTree.entryAt?_put t hl]

/-- What it comes to when a file is to be removed if it is there. -/
theorem run_removeIfPresent (p : Path) (t : FileTree) :
    (removeIfPresent p).run t = if FileTree.holdsNul p then (.error .nullByte, t)
      else match t.locate .entry p with
        | .error .noEntry => (.ok (), t)
        | .error reason => (.error (.refused reason p.toString), t)
        | .ok l => match t.entryAt? l with
          | none => (.ok (), t)
          | some .directory => (.error (.refused .isDirectory p.toString), t)
          | some _ => (.ok (), t.remove l) := by
  unfold removeIfPresent removeEntry
  rw [run_tryCatch, run_call]
  by_cases hnul : FileTree.holdsNul p = true
  · rw [if_pos hnul, if_pos hnul]
    rfl
  · rw [if_neg hnul, if_neg hnul]
    dsimp only [bind, Except.bind]
    rcases t.locate .entry p with reason | l
    · cases reason <;> rfl
    · dsimp only
      rcases t.entryAt? l with _ | _ | _ | _ <;> rfl

/-- At most the entry that the path leads to is removed, and never a
    directory. -/
theorem removeIfPresent_cases (p : Path) (t : FileTree) :
    (∃ fault, (removeIfPresent p).run t = (.error fault, t)) ∨
      (removeIfPresent p).run t = (.ok (), t) ∨
      ∃ l e, t.locate .entry p = .ok l ∧ t.entryAt? l = some e ∧ e ≠ .directory ∧
        (removeIfPresent p).run t = (.ok (), t.remove l) := by
  rw [run_removeIfPresent]
  by_cases hnul : FileTree.holdsNul p = true
  · rw [if_pos hnul]
    exact .inl ⟨_, rfl⟩
  · rw [if_neg hnul]
    rcases t.locate .entry p with reason | l
    · cases reason <;> first | exact .inr (.inl rfl) | exact .inl ⟨_, rfl⟩
    · dsimp only
      rcases hentry : t.entryAt? l with _ | _ | _ | _
      · exact .inr (.inl rfl)
      · exact .inl ⟨_, rfl⟩
      · exact .inr (.inr ⟨l, _, rfl, hentry, nofun, rfl⟩)
      · exact .inr (.inr ⟨l, _, rfl, hentry, nofun, rfl⟩)

/-- **No file is left** where one was to be removed. -/
theorem not_holdsFile_of_removeIfPresent (p : Path) (t : FileTree) :
    ¬ ((removeIfPresent p).run t).2.HoldsFile p := by
  rintro ⟨hnul, l, e, hlocate, hentry, hfile⟩
  rw [run_removeIfPresent, if_neg (by rw [hnul]; exact nofun)] at hlocate hentry
  rcases hbefore : t.locate .entry p with reason | l₀
  · rw [hbefore] at hlocate
    cases reason <;> exact nomatch hbefore.symm.trans hlocate
  · rw [hbefore] at hlocate hentry
    dsimp only at hlocate hentry
    rcases hthere : t.entryAt? l₀ with _ | _ | ⟨bytes, executable⟩ | target
    · rw [hthere] at hlocate hentry
      rw [← Except.ok.inj (hbefore.symm.trans hlocate), hthere] at hentry
      exact nomatch hentry
    · rw [hthere] at hlocate hentry
      rw [← Except.ok.inj (hbefore.symm.trans hlocate), hthere] at hentry
      exact hfile (Option.some.inj hentry).symm
    · rw [hthere] at hlocate hentry
      exact removed hbefore (by rw [hthere]; exact nofun) hlocate hentry
    · rw [hthere] at hlocate hentry
      exact removed hbefore (by rw [hthere]; exact nofun) hlocate hentry
where
  /-- What is removed is not found again, wherever the path may lead. -/
  removed {l₀ l : Location} {e : Entry} (hbefore : t.locate .entry p = .ok l₀)
      (hentry₀ : t.entryAt? l₀ ≠ some .directory)
      (hlocate : (t.remove l₀).locate .entry p = .ok l)
      (hentry : (t.remove l₀).entryAt? l = some e) : False := by
    have hsame := FileTree.locate_of_opens (FileTree.opens_of_remove t l₀) (.inl rfl) hlocate
    have hl : l = l₀ := Except.ok.inj (hsame.symm.trans hbefore)
    have hl₀ : l₀ ≠ [] := by
      rintro rfl
      exact hentry₀ rfl
    rw [FileTree.entryAt?_remove, if_pos ⟨hl, hl₀⟩] at hentry
    exact nomatch hentry

end Disk

end AheadOfTime
