import AheadOfTime.Proofs.Emptying
import AheadOfTime.Proofs.Staying

/-! # Where a build works

    A build works in one scratch directory, and outside of it changes nothing
    itself but what lies on the way to its outputs.  A `Site` fixes the scratch
    directory and the outputs; `Site.Keeps` says of a step that a world that is
    ready for the site is left ready, and that every change outside the scratch
    directory is accounted for, by what a tool did or by an output.  Which directory
    the session gets shows only when it is made, since one that cannot be made is
    tried again under another name; so all this is said of steps behind which the
    session has no other directory than that of the site.

    Tools may do what they want, as long as they leave the way to the scratch
    directory steady (`Site.Sound`). -/

namespace AheadOfTime

open FileTree (Steady Loose OnTheWay Grown)

variable {α β : Type}

theorem prefix_of_eq {l l' : List α} (h : l = l') : l <+: l' := h ▸ List.prefix_refl l

/-! ## Names of scratch files -/

namespace Text

/-- A text without the separator is one piece. -/
theorem splitAt_of_not_mem {α : Type} [DecidableEq α] {a : α} {l : List α} (h : a ∉ l) :
    splitAt a l = [l] := by
  induction l with
  | nil => rfl
  | cons b later ih =>
      rw [List.mem_cons, not_or] at h
      unfold splitAt
      rw [if_neg (Ne.symm h.1), ih h.2]
      rfl

/-- A text without the separator is one piece. -/
theorem pieces_of_not_mem {c : Char} {s : String} (h : c ∉ s.toList) : pieces c s = [s] := by
  unfold pieces
  rw [splitAt_of_not_mem h, List.map_singleton, String.ofList_toList]

end Text

namespace Anchor

/-- Without a slash in front, a path has no anchor. -/
theorem ofChars_relative {l : List Char} (h : l.head? ≠ some '/') : ofChars l = .relative := by
  refine ofChars.eq_4 l ?_ ?_ ?_
  all_goals
    rintro tail rfl
    exact h rfl

/-- One slash in front is the root. -/
theorem ofChars_root {l : List Char} (h : l.head? ≠ some '/') : ofChars ('/' :: l) = .root := by
  refine ofChars.eq_3 l ?_ ?_
  all_goals
    rintro tail rfl
    exact h rfl

theorem ofChars_doubleRoot {l : List Char} (h : l.head? ≠ some '/') :
    ofChars ('/' :: '/' :: l) = .doubleRoot := by
  refine ofChars.eq_2 l ?_
  rintro tail rfl
  exact h rfl

end Anchor

/-- A text that is one proper name names what is below a path under that name. -/
theorem Path.child_of_name (d : Path) {name : String} (hslash : '/' ∉ name.toList)
    (hdot : ¬ (name = "" ∨ name = ".")) : d.child name = ⟨d.anchor, d.parts ++ [name]⟩ := by
  have hanchor : Anchor.ofChars name.toList = .relative :=
    Anchor.ofChars_relative fun hhead => hslash (List.mem_of_head? hhead)
  have hname : isName name = true := by
    unfold isName
    rw [Bool.and_eq_true, bne_iff_ne, bne_iff_ne]
    exact not_or.mp hdot
  have hparts : ofString name = ⟨.relative, [name]⟩ := by
    unfold ofString
    rw [hanchor, Text.pieces_of_not_mem hslash, List.filter_cons_of_pos hname, List.filter_nil]
  unfold child join
  rw [hparts]
  rfl

namespace Text

/-- What holds of the digits holds of every character of a numeral. -/
theorem forall_mem_hex (p : Char → Prop) (hdigit : ∀ k < 16, p (Nat.digitChar k))
    (width n : Nat) : ∀ c ∈ (hex width n).toList, p c := by
  have hdigits : ∀ c ∈ Nat.toDigits 16 n, p c := by
    induction n using Nat.base_induction 16 (by decide) with
    | single m hm =>
        rw [Nat.toDigits_of_lt_base hm]
        exact List.forall_mem_singleton.mpr (hdigit m hm)
    | digit m k hk hm ih =>
        rw [← Nat.toDigits_append_toDigits (by decide) hm hk, Nat.toDigits_of_lt_base hk]
        exact List.forall_mem_append.mpr ⟨ih, List.forall_mem_singleton.mpr (hdigit k hk)⟩
  unfold hex zeroFill
  rw [String.toList_ofList]
  refine List.forall_mem_append.mpr ⟨fun c hc => ?_, hdigits⟩
  rw [List.eq_of_mem_replicate hc]
  exact hdigit 0 (by decide)

/-- A hexadecimal numeral can stand in a name. -/
theorem slash_not_mem_hex (width n : Nat) : '/' ∉ (hex width n).toList :=
  fun hin => forall_mem_hex (· ≠ '/') (by decide) width n '/' hin rfl

end Text

namespace Scratch

/-- No stem of a scratch file leads to another directory. -/
theorem slash_not_mem_safeStem (stem : String) : '/' ∉ (safeStem stem).toList := by
  have hsafe : ∀ c : Char, (if Text.isWord c ∨ c = '.' ∨ c = '-' then c else '_') ≠ '/' := by
    intro c hc
    split at hc
    · rename_i hkept
      subst hc
      exact absurd hkept (by decide +kernel)
    · exact absurd hc (by decide)
  unfold safeStem
  intro hin
  dsimp only at hin
  split at hin
  · exact absurd hin (by decide)
  · rw [String.toList_ofList] at hin
    obtain ⟨c, -, hc⟩ := List.mem_map.mp hin
    exact hsafe c hc

/-- A name made from a stem is a proper name, if neither the identifier nor the
    extension holds a slash. -/
theorem isProper_fileName (stem : String) {id extension : String} (hid : '/' ∉ id.toList)
    (hextension : '/' ∉ extension.toList) : '/' ∉ (fileName stem id extension).toList ∧
      ¬ (fileName stem id extension = "" ∨ fileName stem id extension = ".") ∧
      fileName stem id extension ≠ ".." := by
  have hlist : (fileName stem id extension).toList
      = (safeStem stem).toList ++ ['-'] ++ id.toList ++ extension.toList := by
    unfold fileName
    simp only [String.toList_append]
    rfl
  -- the hyphen keeps the name from being empty and from being made of dots
  have hhyphen : '-' ∈ (fileName stem id extension).toList := by
    rw [hlist]
    simp
  refine ⟨?_, ?_, ?_⟩
  · rw [hlist]
    simp [slash_not_mem_safeStem stem, hid, hextension]
  · rintro (hempty | hdot)
    · rw [hempty] at hhyphen
      exact absurd hhyphen (by decide)
    · rw [hdot] at hhyphen
      exact absurd hhyphen (by decide)
  · intro hup
    rw [hup] at hhyphen
    exact absurd hhyphen (by decide)

/-- A name made from a stem names something below the directory. -/
theorem isScratch_fileName (d : Path) (stem : String) {id extension : String}
    (hid : '/' ∉ id.toList) (hextension : '/' ∉ extension.toList) :
    d.IsScratch (d.child (fileName stem id extension)) := by
  obtain ⟨hslash, hdot, hup⟩ := isProper_fileName stem hid hextension
  exact ⟨_, hdot, hup, d.child_of_name hslash hdot⟩

end Scratch

/-! ## Sites -/

/-- Where a build works: the scratch directory, the place it is made at, and the
    outputs. -/
structure Site where
  directory : Path
  place : Location
  IsOutput : Path → Prop

/-- A call between two worlds, with the exchanges before it. -/
def CalledBetween (w v : World) (history : List Exchange) (x : Exchange) : Prop :=
  w.exchanges <+: history ∧ history ++ [x] <+: v.exchanges

namespace Site

variable {host : Host} {s : Site} {u v w : World} {p : Path} {l : Location}

/-- Identifiers are good for names, and tools leave the way to the scratch
    directory as steady as they find it. -/
structure Sound (host : Host) (s : Site) : Prop where
  ids : ∀ n, '/' ∉ (host.scratchId n).toList
  tools : ∀ history c files, Steady s.directory s.place files →
    Steady s.directory s.place (host.tools history c files).2

/-- What the scratch session of a world has made and handed out belongs to the
    site. -/
structure Holds (s : Site) (w : World) : Prop where
  directory : ∀ d, w.scratch.directory = some d →
    d = s.directory ∧ FileTree.holdsNul d = false ∧ s.place ≠ []
  handedOut : ∀ f ∈ w.scratch.files,
    w.scratch.directory ≠ none ∧ s.directory.IsScratch f

/-- The world is ready for work at the site. -/
structure Ready (s : Site) (w : World) : Prop extends Holds s w where
  steady : Steady s.directory s.place w.files

/-- The location is none of the scratch directory's, if there is one. -/
def Outside (s : Site) (w : World) (l : Location) : Prop :=
  w.scratch.directory = none ∨ ¬ s.place <+: l

/-- Between the two worlds, the tool of some call changed what stands at the
    location, or the location was on the way to an output when a tool was called
    or when it was done. -/
def Accounted (host : Host) (s : Site) (w v : World) (l : Location) : Prop :=
  ∃ history x, CalledBetween w v history x ∧
    ((host.left history x).entryAt? l ≠ x.found.entryAt? l ∨
      ∃ p, s.IsOutput p ∧ (OnTheWay x.found p l ∨ OnTheWay (host.left history x) p l))

/-- What every step does to a world that is ready: the exchanges and the scratch
    session only grow. -/
structure Extends (w v : World) : Prop where
  exchanges : w.exchanges <+: v.exchanges
  files : w.scratch.files <+: v.scratch.files
  directory : v.scratch.directory = none → w.scratch.directory = none

/-- A step that answers has left the world ready, and has changed nothing outside
    the scratch directory that is not accounted for. -/
structure Moved (host : Host) (s : Site) (w v : World) : Prop extends Extends w v where
  ready : s.Ready v
  frame : ∀ l, s.Outside v l →
    v.files.entryAt? l = w.files.entryAt? l ∨ Accounted host s w v l

/-- A step that fails may have cut the way to the scratch directory, and may have
    been on the way to an output. -/
structure Halted (host : Host) (s : Site) (w v : World) : Prop extends Extends w v where
  holds : s.Holds v
  loose : Loose s.directory s.place v.files
  frame : ∀ l, s.Outside v l → v.files.entryAt? l = w.files.entryAt? l ∨
    Accounted host s w v l ∨ ∃ p, s.IsOutput p ∧ OnTheWay v.files p l

/-- An answer with the world it leaves, which has been changed only as it may. -/
def Settled (host : Host) (s : Site) (w : World) : Except Failure α × World → Prop
  | (.ok _, v) => Moved host s w v
  | (.error _, v) => Halted host s w v

/-- From this world, the step changes only what it may, if it leaves the session with
    no other directory. -/
def KeepsFrom (host : Host) (s : Site) (w : World) (act : Build α) : Prop :=
  (act.run w).2.WorksIn s.directory → Settled host s w (act.run w)

/-- The step stays in the session, and in every world that is ready for it, it
    changes only what it may. -/
structure Keeps (host : Host) (s : Site) (act : Build α) : Prop where
  stays : act.Stays
  keepsFrom : ∀ w, s.Ready w → KeepsFrom host s w act

namespace Extends

theorem refl (w : World) : Extends w w := ⟨List.prefix_refl _, List.prefix_refl _, id⟩

theorem trans (h : Extends w u) (h' : Extends u v) : Extends w v :=
  ⟨h.exchanges.trans h'.exchanges, h.files.trans h'.files,
    fun hnone => h.directory (h'.directory hnone)⟩

theorem outside (h : Extends w v) (hl : s.Outside v l) : s.Outside w l := hl.imp_left h.directory

end Extends

/-- What is accounted for between two worlds is so over any longer stretch. -/
theorem Accounted.mono {w' v' : World} (h : Accounted host s w v l)
    (hbefore : w'.exchanges <+: w.exchanges) (hafter : v.exchanges <+: v'.exchanges) :
    Accounted host s w' v' l := by
  obtain ⟨history, x, ⟨hstart, hend⟩, hwhy⟩ := h
  exact ⟨history, x, ⟨hbefore.trans hstart, hend.trans hafter⟩, hwhy⟩

namespace Moved

theorem refl (h : s.Ready w) : Moved host s w w := ⟨.refl w, h, fun _ _ => .inl rfl⟩

/-- What was moved twice was moved as it may. -/
theorem trans (h : Moved host s w u) (h' : Moved host s u v) : Moved host s w v := by
  refine ⟨h.toExtends.trans h'.toExtends, h'.ready, fun l hl => ?_⟩
  rcases h'.frame l hl with heq' | haccounted'
  · rcases h.frame l (h'.outside hl) with heq | haccounted
    · exact .inl (heq'.trans heq)
    · exact .inr (haccounted.mono (List.prefix_refl _) h'.exchanges)
  · exact .inr (haccounted'.mono h.exchanges (List.prefix_refl _))

/-- A step that fails may come behind one that answers. -/
theorem trans_halted (h : Moved host s w u) (h' : Halted host s u v) : Halted host s w v := by
  refine ⟨h.toExtends.trans h'.toExtends, h'.holds, h'.loose, fun l hl => ?_⟩
  rcases h'.frame l hl with heq' | haccounted' | hway'
  · rcases h.frame l (h'.outside hl) with heq | haccounted
    · exact .inl (heq'.trans heq)
    · exact .inr (.inl (haccounted.mono (List.prefix_refl _) h'.exchanges))
  · exact .inr (.inl (haccounted'.mono h.exchanges (List.prefix_refl _)))
  · exact .inr (.inr hway')

/-- What a step that answers may have done, a step that fails may have done. -/
theorem halted (h : Moved host s w v) : Halted host s w v := by
  refine ⟨h.toExtends, h.ready.toHolds, h.ready.steady.loose, fun l hl => ?_⟩
  rcases h.frame l hl with heq | haccounted
  · exact .inl heq
  · exact .inr (.inl haccounted)

end Moved

/-! ## Putting steps together -/

/-- What is moved as it may be is settled, whatever the answer. -/
theorem Moved.settled {answer : Except Failure α × World} (h : Moved host s w answer.2) :
    Settled host s w answer := by
  rcases answer with ⟨failure | a, v⟩
  · exact h.halted
  · exact h

theorem KeepsFrom.of_moved {act : Build α}
    (h : (act.run w).2.WorksIn s.directory → Moved host s w (act.run w).2) :
      KeepsFrom host s w act :=
  fun hfits => (h hfits).settled

/-- A step that keeps to the site may have failed. -/
theorem KeepsFrom.halted {act : Build α} (h : KeepsFrom host s w act)
    (hfits : (act.run w).2.WorksIn s.directory) : Halted host s w (act.run w).2 := by
  have hsettled := h hfits
  rcases hrun : act.run w with ⟨failure | a, v⟩
  · rw [hrun] at hsettled
    exact hsettled
  · rw [hrun] at hsettled
    exact Moved.halted hsettled

/-- **One step behind the other** changes only what both may. -/
theorem KeepsFrom.bind {x : Build α} {f : α → Build β} (hx : KeepsFrom host s w x)
    (hstays : ∀ a v, x.run w = (.ok a, v) → (f a).Stays)
    (hf : ∀ a v, x.run w = (.ok a, v) → Moved host s w v → KeepsFrom host s v (f a)) :
    KeepsFrom host s w (x >>= f) := by
  intro hfits
  unfold KeepsFrom at hx
  rcases hrun : x.run w with ⟨failure | a, u⟩
  · rw [hrun] at hx
    rw [run_bind_error hrun] at hfits ⊢
    exact hx hfits
  · rw [hrun] at hx
    rw [run_bind_ok hrun] at hfits ⊢
    have hmoved : Moved host s w u := hx (hfits.earlier (hstays a u hrun u))
    have hsecond := hf a u hrun hmoved hfits
    rcases hrun' : (f a).run u with ⟨failure | b, v⟩
    · rw [hrun'] at hsecond
      exact hmoved.trans_halted hsecond
    · rw [hrun'] at hsecond
      exact hmoved.trans hsecond

/-- A step that keeps to the site, and behind it one that does so in the world that
    the first one leaves. -/
theorem Keeps.bindFrom {x : Build α} {f : α → Build β} (hx : Keeps host s x)
    (hstays : ∀ a, (f a).Stays)
    (hf : ∀ a w v, x.run w = (.ok a, v) → s.Ready v → KeepsFrom host s v (f a)) :
    Keeps host s (x >>= f) where
  stays := hx.stays.bind hstays
  keepsFrom := fun w hw => (hx.keepsFrom w hw).bind (fun a _ _ => hstays a)
    fun a v hrun hmoved => hf a w v hrun hmoved.ready

/-- A step that keeps to the site, and behind it one that does so for what the first
    one can answer. -/
theorem Keeps.bind_ok {x : Build α} {f : α → Build β} (hx : Keeps host s x)
    (hf : ∀ a w v, x.run w = (.ok a, v) → Keeps host s (f a)) : Keeps host s (x >>= f) where
  stays := hx.stays.bind_ok fun a w v hrun => (hf a w v hrun).stays
  keepsFrom := fun w hw => (hx.keepsFrom w hw).bind (fun a v hrun => (hf a w v hrun).stays)
    fun a v hrun hmoved => (hf a w v hrun).keepsFrom v hmoved.ready

/-- **Steps that keep to a site** do so together. -/
theorem Keeps.bind {x : Build α} {f : α → Build β} (hx : Keeps host s x)
    (hf : ∀ a, Keeps host s (f a)) : Keeps host s (x >>= f) :=
  hx.bind_ok fun a _ _ _ => hf a

/-! ## Steps that touch no files -/

/-- A world with the same session, files and exchanges is as ready. -/
theorem Moved.of_same (h : s.Ready w) (hscratch : v.scratch = w.scratch)
    (hfiles : v.files = w.files) (hexchanges : v.exchanges = w.exchanges) :
    Moved host s w v := by
  refine ⟨⟨prefix_of_eq hexchanges.symm, ?_, ?_⟩, ⟨⟨?_, ?_⟩, ?_⟩, fun l _ => ?_⟩
  · exact prefix_of_eq (congrArg Scratch.files hscratch.symm)
  · rw [hscratch]
    exact id
  · rw [hscratch]
    exact h.directory
  · rw [hscratch]
    exact h.handedOut
  · rw [hfiles]
    exact h.steady
  · rw [hfiles]
    exact .inl rfl

theorem Moved.of_alike (h : s.Ready w) (halike : World.Alike w v) : Moved host s w v :=
  .of_same h halike.scratch halike.files halike.exchanges

/-- A still step keeps to any site. -/
theorem keeps_of_still {act : Build α} (h : act.Still) : Keeps host s act where
  stays := h.stays
  keepsFrom := fun w hw => .of_moved fun _ => .of_alike hw (h w)

theorem keeps_pure (a : α) : Keeps host s (pure a) := keeps_of_still (Build.still_pure a)

/-! ## Steps that touch the scratch directory -/

/-- The world stays ready with other files, if the way to the directory is steady in
    them. -/
theorem Ready.withFiles (h : s.Ready w) {files : FileTree}
    (hsteady : Steady s.directory s.place files) : s.Ready { w with files } :=
  ⟨⟨h.directory, h.handedOut⟩, hsteady⟩

/-- What is put at or below the place of the scratch directory. -/
theorem Moved.put (h : s.Ready w) (hmade : w.scratch.directory ≠ none) {e : Entry}
    (hbelow : s.place <+: l) (hl : l ≠ []) (he : e.isLink = false) :
    Moved host s w { w with files := w.files.put l e } := by
  refine ⟨⟨List.prefix_refl _, List.prefix_refl _, id⟩,
    h.withFiles (h.steady.of_spares (w.files.spares_put hbelow hl he)), ?_⟩
  intro l' hl'
  refine .inl (w.files.entryAt?_put_of_ne e ?_)
  rintro rfl
  exact (hl'.resolve_left hmade) hbelow

/-- The scratch directory is made at its place, unless it cannot be made. -/
theorem Moved.scratchDirectory (hw : s.Ready w)
    (hfits : (Build.scratchDirectory.run w).2.WorksIn s.directory) :
    Moved host s w (Build.scratchDirectory.run w).2 := by
  have hgives := Build.givesDirectory w
  generalize Build.scratchDirectory.run w = outcome at hgives hfits ⊢
  cases hgives with
  | standing => exact .refl hw
  | refused hdirectory hrun =>
      rw [Disk.call_error hrun]
      exact ⟨⟨List.prefix_refl _, List.prefix_refl _, id⟩,
        ⟨⟨hw.directory, hw.handedOut⟩, hw.steady⟩, fun _ _ => .inl rfl⟩
  | made hdirectory hrun =>
      have hnul := (Disk.call_ok hrun).1
      -- the directory is made at the place of the site, which was free
      obtain ⟨l, hlocate, hfree, rfl⟩ := Disk.makeDirectoryAs_ok hrun
      have hmade : .ofString w.scratchText = s.directory := hfits _ rfl
      rw [hmade] at hlocate hnul
      obtain rfl : l = s.place := Except.ok.inj (hlocate.symm.trans hw.steady.locate_eq)
      have hl : s.place ≠ [] := by
        intro hroot
        rw [hroot] at hfree
        exact nomatch hfree
      refine ⟨⟨List.prefix_refl _, List.prefix_refl _, fun _ => hdirectory⟩, ⟨⟨?_, ?_⟩, ?_⟩, ?_⟩
      · intro d hd
        obtain rfl := Option.some.inj hd
        exact ⟨hmade, hmade ▸ hnul, hl⟩
      · intro f hf
        exact absurd hdirectory (hw.handedOut f hf).1
      · exact hw.steady.of_spares (w.files.spares_put (List.prefix_refl _) hl rfl)
      · rintro l' (hnone | houtside)
        · exact nomatch hnone
        · refine .inl (w.files.entryAt?_put_of_ne .directory ?_)
          rintro rfl
          exact houtside (List.prefix_refl _)

/-- **A scratch file** is handed out below the directory, or refused. -/
theorem Moved.allocate (hsound : Sound host s) (hw : s.Ready w) {stem extension : String}
    (hextension : '/' ∉ extension.toList)
    (hfits : ((Build.allocate host stem extension).run w).2.WorksIn s.directory) :
    Moved host s w ((Build.allocate host stem extension).run w).2 := by
  have hdirectory : (Build.scratchDirectory.run w).2.WorksIn s.directory →
      Moved host s w (Build.scratchDirectory.run w).2 := Moved.scratchDirectory hw
  -- the directory may be made for the file, so its step comes first
  have hhands := Build.handsOut host stem extension w
  generalize (Build.allocate host stem extension).run w = outcome at hhands hfits ⊢
  cases hhands with
  | closed => exact .refl hw
  | refused _ hrun =>
      rw [hrun] at hdirectory
      exact hdirectory hfits
  | @given d path v _ hrun hpath =>
      rw [hrun] at hdirectory
      have hmoved := hdirectory hfits
      have hmade := (Build.scratchDirectory_ok hrun).1
      have hv := hmoved.ready
      obtain ⟨rfl, -⟩ := hv.directory d hmade
      refine hmoved.trans ⟨⟨List.prefix_refl _, List.prefix_append _ _, id⟩,
        ⟨⟨hv.directory, ?_⟩, hv.steady⟩, fun _ _ => .inl rfl⟩
      intro f hf
      have hsome : v.scratch.directory ≠ none := by
        rw [hmade]
        exact nofun
      rcases List.mem_append.mp hf with hold | hnew
      · exact hv.handedOut f hold
      · rw [List.mem_singleton.mp hnew, hpath]
        exact ⟨hsome, Scratch.isScratch_fileName _ _ (hsound.ids _) hextension⟩

/-- A scratch file is handed out at the site. -/
theorem keeps_allocate (hsound : Sound host s) (stem : String) {extension : String}
    (hextension : '/' ∉ extension.toList) : Keeps host s (Build.allocate host stem extension) where
  stays := Build.stays_allocate host stem extension
  keepsFrom := fun _ hw => .of_moved (.allocate hsound hw hextension)

/-- A text is written to a scratch file. -/
theorem keepsFrom_writeText (hw : s.Ready w) (hp : p ∈ w.scratch.files) (text : String) :
    KeepsFrom host s w (Build.onDisk (Disk.writeText p text)) := by
  obtain ⟨hmade, name, hdot, hup, rfl⟩ := hw.handedOut p hp
  intro _
  rw [Build.run_onDisk]
  rcases hrun : (Disk.writeText _ text).run w.files with ⟨fault | _, files⟩
  · rw [Disk.call_error hrun]
    exact (Moved.refl hw).halted
  · obtain ⟨l, executable, hlocate, -, rfl⟩ := Disk.writeText_ok hrun
    obtain rfl := hw.steady.inside hdot hup hlocate
    exact .put hw hmade (List.prefix_append _ _) (by simp) rfl

/-! ## Steps that let tools work -/

/-- A tool that is asked moves only what is accounted for. -/
theorem Moved.asked (hsound : Sound host s) (hw : s.Ready w) (c : Call) (program : String) :
    Moved host s w (host.asked c program w) := by
  refine ⟨⟨List.prefix_append _ _, List.prefix_refl _, id⟩,
    ⟨⟨hw.directory, hw.handedOut⟩, hsound.tools _ _ _ hw.steady⟩, fun l _ => ?_⟩
  by_cases hsame : (host.asked c program w).files.entryAt? l = w.files.entryAt? l
  · exact .inl hsame
  · exact .inr ⟨w.exchanges, host.exchanged c w, ⟨List.prefix_refl _, List.prefix_refl _⟩,
      .inl hsame⟩

/-- **A call** changes what its tool changes. -/
theorem Moved.call (hsound : Sound host s) (hw : s.Ready w) (c : Call) :
    Moved host s w ((host.call c).run w).2 := by
  rcases hargv : c.argv with _ | ⟨program, arguments⟩
  · rw [host.run_call_of_nil hargv]
    exact .refl hw
  · rw [host.run_call c hargv]
    exact .asked hsound hw c program

/-- So does a call, if a tool is found for it or not. -/
theorem Moved.hostRun (hsound : Sound host s) (hw : s.Ready w) (c : Call) :
    Moved host s w ((host.run c).run w).2 := by
  have hcall := Moved.call hsound hw c
  unfold Host.run
  rcases hrun : (host.call c).run w with ⟨failure | reply, u⟩
  · rw [hrun] at hcall
    rw [run_bind_error hrun]
    exact hcall
  · rw [hrun] at hcall
    rw [run_bind_ok hrun]
    exact hcall.trans (.of_alike hcall.ready (c.still_conclude reply u))

/-- **A call** keeps to any site whose tools are sound. -/
theorem keeps_hostRun (hsound : Sound host s) (c : Call) : Keeps host s (host.run c) where
  stays := host.stays_run c
  keepsFrom := fun _ hw => .of_moved fun _ => .hostRun hsound hw c

/-- A path for something to be made: an output, or a scratch file that has been
    handed out. -/
def Given (s : Site) (w : World) (p : Path) : Prop := s.IsOutput p ∨ p ∈ w.scratch.files

theorem Given.mono (h : s.Given w p) (hextends : Extends w v) : s.Given v p :=
  h.imp_right fun hfile => hextends.files.subset hfile

/-- The directory of a scratch file is made only where the scratch directory
    was. -/
theorem Moved.makeDirectories (hw : s.Ready w) (hp : p ∈ w.scratch.files) :
    Moved host s w { w with files := ((Disk.makeDirectories p.parent).run w.files).2 } := by
  obtain ⟨hmade, name, -, -, rfl⟩ := hw.handedOut p hp
  have hparent : (Path.mk s.directory.anchor (s.directory.parts ++ [name])).parent
      = s.directory := by
    unfold Path.parent
    rw [List.dropLast_concat]
  rw [hparent]
  rcases Disk.makeDirectories_of_locate hw.steady.locate_eq with hsame | ⟨hfree, hput⟩
  · rw [hsame]
    exact .refl hw
  · rw [hput]
    refine .put hw hmade (List.prefix_refl _) ?_ rfl
    intro hroot
    rw [hroot] at hfree
    exact nomatch hfree

/-- What is made on the way to an output is accounted for by the next call. -/
theorem Moved.of_grown (hp : s.IsOutput p) {files : FileTree}
    (hgrown : Grown p w.files files) (hcalled : Moved host s { w with files } v) {x : Exchange}
    (hfound : x.found = files) (hcall : w.exchanges ++ [x] <+: v.exchanges) :
    Moved host s w v := by
  refine ⟨⟨hcalled.exchanges, hcalled.files, hcalled.directory⟩, hcalled.ready, fun l hl => ?_⟩
  rcases hcalled.frame l hl with heq | haccounted
  · rcases hgrown.entries l with hsame | ⟨-, -, hway⟩
    · exact .inl (heq.trans hsame)
    · rw [← hfound] at hway
      exact .inr ⟨w.exchanges, x, ⟨List.prefix_refl _, hcall⟩, .inr ⟨p, hp, .inl hway⟩⟩
  · exact .inr (haccounted.mono (List.prefix_refl _) (List.prefix_refl _))

/-- **Something is made**: its directory is there, and a tool is called. -/
theorem keepsFrom_make (hsound : Sound host s) (hw : s.Ready w) (hp : s.Given w p) {c : Call}
    (hargv : c.argv ≠ []) : KeepsFrom host s w (do
      Build.onDisk (Disk.makeDirectories p.parent)
      host.run c) := by
  -- of the directories that are made, all are on the way to the output
  have hgrown : Grown p w.files ((Disk.makeDirectories p.parent).run w.files).2 :=
    (Disk.grown_makeDirectories p.parent w.files).below rfl (List.dropLast_prefix _)
  rcases hp with houtput | hfile
  · intro _
    rw [run_bind, Build.run_onDisk]
    rcases hrun : (Disk.makeDirectories p.parent).run w.files with ⟨fault | _, files⟩
    · rw [hrun] at hgrown
      have hsteady := hw.steady.of_spares (hgrown.spares _)
      refine ⟨⟨List.prefix_refl _, List.prefix_refl _, id⟩, ⟨hw.directory, hw.handedOut⟩,
        hsteady.loose, fun l _ => ?_⟩
      rcases hgrown.entries l with hsame | ⟨-, -, hway⟩
      · exact .inl hsame
      · exact .inr (.inr ⟨p, houtput, hway⟩)
    · rw [hrun] at hgrown
      have hready := hw.withFiles (hw.steady.of_spares (hgrown.spares _))
      have hmoved : Moved host s w ((host.run c).run { w with files }).2 := by
        have hcall := host.exchanges_hostRun hargv { w with files }
        exact .of_grown houtput hgrown (.hostRun hsound hready c) rfl
          (prefix_of_eq hcall.symm)
      exact hmoved.settled
  · refine .bind (.of_moved fun _ => ?_) (fun _ _ _ => host.stays_run c)
      fun _ v _ hmoved => (keeps_hostRun hsound c).keepsFrom v hmoved.ready
    have hmoved : Moved host s w _ := .makeDirectories hw hfile
    rw [Build.run_onDisk]
    rcases hrun : (Disk.makeDirectories p.parent).run w.files with ⟨fault | _, files⟩
    · rw [hrun] at hmoved
      exact hmoved
    · rw [hrun] at hmoved
      exact hmoved

/-! ## Steps that take an output away -/

/-- What is removed in the files that a tool left was on the way to an output. -/
theorem Moved.removed (h : Moved host s w u) (hp : s.IsOutput p) {history : List Exchange}
    {x : Exchange} (hcall : CalledBetween w u history x) (hleft : u.files = host.left history x) :
    Halted host s w { u with files := ((Disk.removeIfPresent p).run u.files).2 } := by
  have hkept : Halted host s w { u with files := u.files } := h.halted
  rcases Disk.removeIfPresent_cases p u.files with ⟨fault, hrun⟩ | hrun |
    ⟨l, e, hlocate, -, -, hrun⟩
  · rw [hrun]
    exact hkept
  · rw [hrun]
    exact hkept
  · rw [hrun]
    refine ⟨⟨h.exchanges, h.files, h.directory⟩, ⟨h.ready.directory, h.ready.handedOut⟩,
      h.ready.steady.loose.of_opens (u.files.opens_of_remove l), fun l' hl' => ?_⟩
    by_cases hl : l' = l
    · subst hl
      rw [hleft] at hlocate
      exact .inr (.inl ⟨history, x, hcall,
        .inr ⟨p, hp, .inr ⟨p.parts, List.prefix_refl _, hlocate⟩⟩⟩)
    · have hsame : (u.files.remove l).entryAt? l' = u.files.entryAt? l' := by
        rw [FileTree.entryAt?_remove, if_neg fun hcond => hl hcond.1]
      rw [hsame]
      rcases h.frame l' hl' with heq | haccounted
      · exact .inl heq
      · exact .inr (.inl haccounted)

/-- **A strip** changes what its tool changes, and takes away the output. -/
theorem keepsFrom_strip {k : Linker} (hsound : Sound k.host s) (hw : s.Ready w)
    (hp : s.IsOutput p) (flags : List String) : KeepsFrom k.host s w (k.strip p flags) := by
  have hargv : (k.stripCall p flags).argv ≠ [] := by simp [Linker.stripCall]
  have hmoved := Moved.hostRun hsound hw (k.stripCall p flags)
  have hcalled := k.host.exchanges_hostRun hargv w
  intro _
  rw [Linker.run_strip]
  rcases hrun : (k.host.run (k.stripCall p flags)).run w with ⟨(problem | fault) | result, u⟩
  · rw [hrun] at hmoved hcalled
    cases problem with
    -- only a tool that was there and failed has its output removed
    | toolFailed tool stage input arch exit =>
        dsimp only
        have hleft := (Host.run_hostRun_eq_error hargv hrun).1
        have hcall : CalledBetween w u w.exchanges (k.host.exchanged (k.stripCall p flags) w) :=
          ⟨List.prefix_refl _, prefix_of_eq hcalled.symm⟩
        have hremoved := hmoved.removed hp hcall hleft
        rw [Build.run_onDisk]
        rcases hremove : (Disk.removeIfPresent p).run u.files with ⟨fault | _, files⟩
        · rw [hremove] at hremoved
          exact hremoved
        · rw [hremove] at hremoved
          exact hremoved
    | _ => exact hmoved.halted
  · rw [hrun] at hmoved
    exact hmoved.halted
  · rw [hrun] at hmoved
    exact hmoved

end Site

end AheadOfTime
